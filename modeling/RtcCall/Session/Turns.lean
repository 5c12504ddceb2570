import RtcCall.Session.OwnerThread

/-! The turn of a task in the queue of a thread: the tasks before it come first, and no
post comes between. -/
namespace RtcCall.Turns
open OwnerThread

variable {α : Type} {kind : Kind} {o s : Owner α}

/- The steps of the loop itself. -/
def ofLoop : Move α → Bool
  | .control .isShutdown | .control .getNext | .finish _ => true
  | .post _ | .control .askShutdown | .control .stop | .control .stopGetNext | .control .join | .stopFinish _ => false

variable (p : FunctionTask α → Bool)

/- The queued tasks that come before the one in question. -/
def ahead (q : List (FunctionTask α)) : Nat := q.findIdx p

/- The loop's steps until it has run: three for each task before it, at most. -/
def turns (o : Owner α) : Nat := match o.loop with
  | .isShutdown => 3 * ahead p o.queue + 3
  | .getNext => 3 * ahead p o.queue + 2
  | .running t => if p t then 1 else 3 * ahead p o.queue + 4
  | .exited => 0

variable {p}

/- What is posted comes behind it. -/
theorem aheadPost {q : List (FunctionTask α)} (x : FunctionTask α) (queued : ∃ t ∈ q, p t = true) :
    ahead p (q ++ [x]) = ahead p q := by
  have inside := List.findIdx_lt_length_of_exists queued
  rw [ahead,List.findIdx_append,if_pos inside]
  rfl

theorem aheadTake {t : FunctionTask α} {rest : List (FunctionTask α)} :
    ahead p (t::rest) = if p t then 0 else ahead p rest + 1 := by
  cases own : p t <;> simp [ahead,List.findIdx_cons,own]

theorem turnsPost (job : α) (idle : o.stopper = .idle) (held : ∃ t ∈ o.held, p t = true) :
    turns p (o.postImpl job) = turns p o := by
  obtain ⟨t,member,owns⟩ := held
  have behind (queued : ∃ t ∈ o.queue, p t = true) : ahead p (o.postImpl job).queue = ahead p o.queue :=
    aheadPost _ queued
  have hands : o.hands = o.loop.hand.toList := by simp [Owner.hands,idle,Stopper.hand]
  rw [Owner.held,hands] at member
  have same : (o.postImpl job).loop = o.loop := rfl
  unfold turns
  rw [same]
  cases place : o.loop with
  | running x =>
    rw [place] at member
    rcases List.mem_append.mp member with hand | queued
    · cases List.mem_singleton.mp hand
      simp only [owns,if_true]
    · rw [behind ⟨t,queued,owns⟩]
  | exited => rfl
  | isShutdown | getNext =>
    rw [place] at member
    rw [behind ⟨t,member,owns⟩]

/- The loop goes on after another task, with the same queue. -/
theorem turnsFinish (t : FunctionTask α) {r : Outcome} (ends : r ≠ .escaped) :
    turns p (o.finish kind t r) ≤ 3 * ahead p o.queue + 3 := by
  cases r with
  | returned => cases kind <;> simp [turns,Owner.finish,Owner.end,Kind.next]
  | caught => simp [turns,Owner.finish,Owner.end]
  | escaped => exact absurd rfl ends

/- While nobody asks the thread to shut down, each step of its loop brings the task nearer,
and no other step takes it further away. -/
theorem turnsStep {m : Move α} (unasked : o.flag = false) (idle : o.stopper = .idle)
    (held : ∃ t ∈ o.held, p t = true) (ends : m ≠ .finish .escaped)
    (other : ∀ t r, o.loop = .running t → m = .finish r → p t = false) (moved : Step kind o m s) :
    (if ofLoop m then 1 else 0) + turns p s ≤ turns p o := by
  cases moved with
  | post job => exact Nat.le_of_eq ((Nat.zero_add _).trans (turnsPost job idle held))
  | control ok =>
    cases ok with
    | leave place asked =>
      rw [unasked] at asked
      cases asked
    | poll place _ =>
      simp only [turns,place,ofLoop,if_true]
      omega
    | null place empty =>
      obtain ⟨t,member,_⟩ := held
      simp [Owner.held,Owner.hands,place,idle,Loop.hand,Stopper.hand,empty] at member
    | @take t rest place queued =>
      simp only [turns,place,queued,aheadTake,ofLoop,Owner.take,if_true]
      split <;> omega
    | askShutdown user place => simp [turns,place,ofLoop]
    | stop stack place => simp [turns,ofLoop]
    | stopNull place empty | stopTake place queued | join place left => simp [idle] at place
  | @finish t r place =>
    have next : turns p (o.finish kind t r) ≤ 3 * ahead p o.queue + 3 := turnsFinish t (by simpa using ends)
    simp only [turns,place,other t r place rfl,ofLoop,if_true] at next ⊢
    simp
    omega
  | stopFinish threw place => simp [idle] at place

theorem finishRuns {r : Outcome} (moved : Step kind o (.finish r) s) : ∃ t, o.loop = .running t := by
  cases moved with
  | finish _ place => exact ⟨_,place⟩

theorem escapedAborts (moved : Step kind o (.finish .escaped) s) : s.aborted = true := by
  cases moved with
  | finish _ place => rfl

theorem turnsAtMost (o : Owner α) : turns p o ≤ 3 * ahead p o.queue + 4 := by
  unfold turns
  cases o.loop with
  | running t => cases own : p t <;> simp [own]
  | isShutdown | getNext | exited => simp

end RtcCall.Turns
