import RtcCall.Session.HangUp
import RtcCall.Session.Turns
import RtcCall.Session.UserCalls

/-! How long a destroyed call is kept waiting for its End. The closure of End is one of
many in the queue of the user's DUM thread, and the closures of the other calls and the
network's messages are between it and the session. -/
namespace RtcCall.PromptEnd
open StepRuns Turns UserCalls
open OwnerThread hiding step

/- The task that carries the call's End. -/
def endsCall (i : Nat) (t : FunctionTask Job) : Bool := match t.job with
  | .closure j (.endCall _) => j == i
  | _ => false

/- The steps of the DUM thread's loop. -/
def byLoop : Event → Bool
  | .control .isShutdown | .control .getNext | .finish => true
  | _ => false

def Ended (i : Nat) (u : User) : Prop := ∃ w, u.view i = some w ∧ w.log.ended = true

/- The call's object has been destroyed, and its End is in the queue or has run. -/
structure Left (i : Nat) (u : User) : Prop where
  inv : Inv u
  call : ∃ w, u.view i = some w ∧ HangUp.Leaves w ∧ HangUp.Leaving w

section
variable {u v : User} {i : Nat} {e : Event}

theorem callLeaving {w x : Call} {f : CallContext.Event} (left : HangUp.Leaving w)
    (ok : CallContext.step w f = some x) :
    HangUp.Leaving x ∧ (w.log.ended = true → x.log.ended = true) := by
  have gone : w.object ≠ .alive ∧ w.object ≠ .unborn := by
    rcases left with object | object <;> simp [object]
  cases f with
  | newCall | createAppDialogSet offer =>
    obtain ⟨ready,_⟩ := CallContext.whenExact ok
    simp [gone.2] at ready
  | setCallback present =>
    obtain ⟨ready,_⟩ := CallContext.whenExact ok
    simp [gone.1] at ready
  | invite t offer =>
    simp only [CallContext.step] at ok
    split at ok <;> try contradiction
    rename_i alive
    exact absurd alive.2 gone.1
  | issue t op =>
    simp only [CallContext.step] at ok
    split at ok <;> try contradiction
    rename_i alive
    exact absurd alive.1 gone.1
  | getLocalSdp t =>
    simp only [CallContext.step] at ok
    split at ok <;> try contradiction
    rename_i alive
    exact absurd alive gone.1
  | destroy t => exact absurd (CallContext.destroyRuns ok).1 gone.1
  | execute =>
    obtain ⟨c,rest,_,ran⟩ := CallContext.executeRuns ok
    have object := (CallContext.executeUntouched ran).2.1
    refine ⟨?_,fun ended => (HangUp.executeEnded ran).mpr (.inl ended)⟩
    unfold HangUp.Leaving at left ⊢
    rw [object]
    exact left
  | release =>
    obtain ⟨_,rfl⟩ := CallContext.whenExact ok
    exact ⟨.inr rfl,id⟩
  | terminated s j final =>
    obtain ⟨_,rfl⟩ := CallContext.whenExact ok
    cases final <;> exact ⟨left,id⟩
  | _ =>
    obtain ⟨_,rfl⟩ := CallContext.whenExact ok
    exact ⟨left,id⟩

theorem stepLeft (left : Left i u) (ok : step u e = some v) : Left i v ∧ (Ended i u → Ended i v) := by
  obtain ⟨w,there,leaves,leaving⟩ := left.call
  obtain ⟨inv,steps⟩ := stepSteps left.inv ok
  rcases steps i with ⟨_,same⟩ | ⟨_,before,_⟩ | ⟨x,y,f,before,after,moved,_⟩
  · exact ⟨⟨inv,w,same.trans there,leaves,leaving⟩,fun ⟨x,seen,ended⟩ => ⟨x,same.trans seen,ended⟩⟩
  · rw [there] at before
    cases before
  · cases Option.some.inj (there.symm.trans before)
    obtain ⟨gone,ends⟩ := callLeaving leaving moved
    refine ⟨⟨inv,y,after,HangUp.stepLeaves leaves moved,gone⟩,?_⟩
    intro ⟨x,seen,ended⟩
    cases Option.some.inj (there.symm.trans seen)
    exact ⟨y,after,ends ended⟩

/- Until End has run its task is in the queue or in the loop's hand. -/
theorem Left.task (left : Left i u) (still : ¬ Ended i u) : ∃ t ∈ u.thread.held, endsCall i t = true := by
  obtain ⟨w,there,leaves,leaving⟩ := left.call
  rcases leaves.mp leaving with ended | ⟨h,queued⟩
  · exact absurd ⟨w,there,ended⟩ still
  · obtain ⟨x,found,rfl⟩ := Option.map_eq_some_iff.mp there
    obtain ⟨t,held,closure⟩ := List.mem_filterMap.mp queued
    refine ⟨t,held,?_⟩
    cases job : t.job with
    | other => simp [job,Job.closureOf] at closure
    | closure j c =>
      simp only [job,Job.closureOf] at closure
      split at closure
      · rename_i same
        cases Option.some.inj closure
        simp [endsCall,job,same]
      · cases closure

/- The step of the thread in a step of the user; what a call does is a number of posts. -/
theorem threadCases (ok : step u e = some v) :
    (byLoop e = false ∧ ∃ (j : Nat) (cs : List CallContext.Closure),
      v.thread = cs.foldl (fun o c => o.postImpl (.closure j c)) u.thread) ∨
    ∃ m, OwnerThread.Step .dumThread u.thread m v.thread ∧ ofLoop m = byLoop e ∧ ∀ r, m = .finish r → e = .finish := by
  unfold step at ok
  split at ok <;> try contradiction
  cases e with
  | create role =>
    cases Option.some.inj ok
    exact .inl ⟨rfl,0,[],rfl⟩
  | app j f =>
    simp only at ok
    split at ok <;> try contradiction
    obtain ⟨w,x,_,_,rfl⟩ := actExact ok
    exact .inl ⟨rfl,j,x.queue,rfl⟩
  | dum j f =>
    simp only at ok
    split at ok <;> try contradiction
    obtain ⟨w,x,_,_,rfl⟩ := actExact ok
    exact .inl ⟨rfl,j,x.queue,rfl⟩
  | post =>
    obtain ⟨o,moved,rfl⟩ := moveExact ok
    exact .inr ⟨_,moved,rfl,by intro r same; cases same⟩
  | control c =>
    obtain ⟨o,moved,rfl⟩ := moveExact ok
    exact .inr ⟨_,moved,by cases c <;> rfl,by intro r same; cases same⟩
  | finish =>
    simp only at ok
    split at ok <;> try contradiction
    · obtain ⟨w,_,ok⟩ := Option.bind_eq_some_iff.mp ok
      split at ok
      · obtain ⟨o,moved,rfl⟩ := moveExact ok
        exact .inr ⟨_,moved,rfl,fun _ _ => rfl⟩
      · obtain ⟨o,moved,rfl⟩ := moveExact ok
        exact .inr ⟨_,moved,rfl,fun _ _ => rfl⟩
    · obtain ⟨o,moved,rfl⟩ := moveExact ok
      exact .inr ⟨_,moved,rfl,fun _ _ => rfl⟩

theorem turnsPosts (cs : List CallContext.Closure) (j : Nat) {o : Owner Job} {p : FunctionTask Job → Bool}
    (idle : o.stopper = .idle) (held : ∃ t ∈ o.held, p t = true) :
    turns p (cs.foldl (fun o c => o.postImpl (.closure j c)) o) = turns p o := by
  induction cs generalizing o with
  | nil => rfl
  | cons c cs ih =>
    obtain ⟨t,member,own⟩ := held
    have later : ∃ t ∈ (o.postImpl (.closure j c)).held, p t = true :=
      ⟨t,by rw [heldPost]; exact List.mem_append_left _ member,own⟩
    rw [List.foldl_cons,ih (o := o.postImpl (.closure j c)) idle later,turnsPost _ idle ⟨t,member,own⟩]

theorem stepLive (ok : step u e = some v) : u.thread.aborted = false := by
  unfold step at ok
  split at ok <;> try contradiction
  rename_i running
  exact Bool.eq_false_iff.mpr running

/- The loop ends the task of End: End has run. -/
theorem finishEnds {t : FunctionTask Job} (place : u.thread.loop = .running t) (own : endsCall i t = true)
    (ok : step u .finish = some v) : Ended i v := by
  obtain ⟨k,job⟩ := t
  cases job with
  | other => cases own
  | closure j c =>
    cases c with
    | endCall h =>
      have same : j = i := by simpa [endsCall] using own
      subst same
      unfold step at ok
      split at ok <;> try contradiction
      simp only [place,Loop.hand] at ok
      obtain ⟨w,found,ok⟩ := Option.bind_eq_some_iff.mp ok
      obtain ⟨o,moved,rfl⟩ := moveExact ok
      exact ⟨_,viewFound (List.getElem?_set_self (List.getElem?_eq_some_iff.mp found).1),rfl⟩
    | invite offer | operation thread h op | getLocalSdp => cases own

theorem endDrop (left : Left i u) (unasked : u.thread.flag = false) (ok : step u e = some v)
    (live : v.thread.aborted = false) (before : ¬ Ended i u) (still : ¬ Ended i v) :
    (if byLoop e then 1 else 0) + turns (endsCall i) v.thread ≤ turns (endsCall i) u.thread := by
  have held := left.task before
  rcases threadCases ok with ⟨none,j,cs,posted⟩ | ⟨m,moved,which,finishes⟩
  · rw [none,posted,turnsPosts cs j left.inv.idle held]
    exact Nat.le_of_eq (Nat.zero_add _)
  · rw [← which]
    refine turnsStep unasked left.inv.idle held ?_ ?_ moved
    · intro escaped
      subst escaped
      have aborted := escapedAborts moved
      rw [live] at aborted
      cases aborted
    · intro t r place finish
      have same := finishes r finish
      subst same
      cases own : endsCall i t with
      | false => rfl
      | true => exact absurd (finishEnds place own ok) still

end

/- A destroyed call is hung up in its turn: whatever its user's other calls and the network
have the DUM thread do, no more than three steps of its loop for each task in the queue
before the call's End and five more go by before End has run. -/
theorem endsPromptly (before after : List Event) (u v : User) (i : Nat) (w : Call)
    (ran : run step .start before = some u) (went : run step u after = some v) (there : u.view i = some w)
    (leaving : HangUp.Leaving w) (live : v.thread.aborted = false)
    (unasked : Meets step (fun x _ => x.thread.flag = false) u after)
    (enough : 3 * ahead (endsCall i) u.thread.queue + 5 ≤ after.countP byLoop) : Ended i v := by
  have here : Left i u := by
    have alone := runHistory stepAlone startAlone ran
    obtain ⟨own,reached,_⟩ := alone.runs i w there
    have first : HangUp.Leaves (CallContext.World.initial w.role) := by
      simp [CallContext.World.initial,HangUp.Leaves,HangUp.Leaving]
    have leaves : HangUp.Leaves w := visitsLast
      (visitsOfKeeps (C := fun _ _ => True) (fun _ _ _ leaves _ ok => HangUp.stepLeaves leaves ok) first
        (meetsOfEvents (fun _ _ _ => trivial) _)) reached
    exact ⟨alone.inv,w,there,leaves,leaving⟩
  have left : Visits step (Left i) u after :=
    visitsOfKeeps (C := fun _ _ => True) (fun _ _ _ left _ ok => (stepLeft left ok).1) here
      (meetsOfEvents (fun _ _ _ => trivial) u)
  by_contra still
  -- Late is a call that has not ended while the process is alive.
  refine turnComes (P := fun x => ¬ Ended i x ∧ x.thread.aborted = false)
    (μ := fun x => turns (endsCall i) x.thread) (p := byLoop) ?_ ?_ (meetsBoth (meetsOfVisits left) unasked) went ?_
    ⟨still,live⟩
  · exact fun x e y now ok late => ⟨mt (stepLeft now.1 ok).2 late.1,stepLive ok⟩
  · exact fun x e y now before later ok => endDrop now.1 now.2 ok later.2 before.1 later.1
  · have most := turnsAtMost (p := endsCall i) u.thread
    omega

/- The first of two calls is destroyed behind the INVITEs of both; the second one goes on. -/
def destroyed : List Event := [.create .caller,.create .caller,.app 0 .newCall,.app 1 .newCall,
  .app 0 (.invite .app none),.app 1 (.invite .app none),.app 0 (.destroy .app)]

def handled : List Event := [.control .isShutdown,.control .getNext,.app 1 (.destroy .app),.finish,.control .isShutdown,
  .control .getNext,.post,.finish,.app 0 .release,.control .isShutdown,.control .getNext,.finish,.control .isShutdown,
  .control .getNext]

theorem destroyedEnds : ∃ u v w, run step .start destroyed = some u ∧ run step u handled = some v ∧
    u.view 0 = some w ∧ HangUp.Leaving w ∧ Ended 0 v :=
  ⟨_,_,_,rfl,rfl,rfl,.inl rfl,endsPromptly destroyed handled _ _ 0 _ rfl rfl rfl (.inl rfl) rfl (by decide) (by decide)⟩

end RtcCall.PromptEnd
