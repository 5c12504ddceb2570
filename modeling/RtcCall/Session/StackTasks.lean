import RtcCall.Session.OwnerThread

/-! The tasks of the StackThread between Post, the loop and Stop: each runs at most once,
they run in the order of the posts, and Stop leaves none behind. -/
namespace RtcCall.StackTasks
open StepRuns OwnerThread

variable {α : Type}

def starts (log : List Entry) : List Nat := log.filterMap (fun e => match e with
  | .started k => some k
  | .finished _ => none)

def AtMostOnce (s : Owner α) : Prop := (starts s.log).Nodup

/- Where a task starts, every task posted before it has finished. -/
def InOrder (log : List Entry) : Prop :=
  ∀ i k, log[i]? = some (.started k) → ∀ j, j < k → .finished j ∈ log.take i

/- When Stop has returned, every task posted until then has run. -/
def Complete (s : Owner α) : Prop :=
  ∀ due, s.stopper = .returned due → ∀ k, k < due → .finished k ∈ s.log

def TasksKept (s : Owner α) : Prop := InOrder s.log ∧ Complete s

def Stopped (s : Owner α) : Bool := match s.stopper with
  | .returned _ => true
  | .idle | .getNext | .running _ | .joining => false

/- The loop and Stop take no task while the other runs one. A task is posted, and an
exception caught with tasks in the queue, only while one of the two will look at the queue
again; after Stop has returned any post will do. -/
def Covered (s : Owner α) : Move α → Prop
  | .post _ => Stopped s = true ∨ s.served .stackThread = true
  | .control .getNext => s.stopper.hand = none ∨ s.queue = []
  | .control .stopGetNext => s.loop.hand = none ∨ s.queue = []
  | .finish .caught => s.flag = false ∨ s.stopper.drains = true ∨ s.queue = []
  | .control .isShutdown | .control .askShutdown | .control .stop | .control .join => True
  | .finish .returned | .finish .escaped | .stopFinish _ => True

instance [DecidableEq α] (s : Owner α) (m : Move α) : Decidable (Covered s m) := by
  unfold Covered
  split <;> infer_instance

/- The ids of the tasks in the hands, in the queue and in the log. -/
structure Book (hands queue : List (FunctionTask α)) (posts : Nat) (log : List Entry) : Prop where
  numbered : starts log ++ queue.map FunctionTask.id = List.range posts
  distinct : (hands.map FunctionTask.id).Nodup
  running : ∀ k, (k ∈ starts log ∧ .finished k ∉ log) ↔ k ∈ hands.map FunctionTask.id
  finished : ∀ k, .finished k ∈ log → k ∈ starts log

def Booked (s : Owner α) : Prop := Book s.hands s.queue s.posts s.log

theorem startsStarted (log : List Entry) (k : Nat) : starts (log ++ [.started k]) = starts log ++ [k] := by
  simp [starts]

theorem startsFinished (log : List Entry) (k : Nat) : starts (log ++ [.finished k]) = starts log := by
  simp [starts]

namespace Book
variable {hands queue rest : List (FunctionTask α)} {t : FunctionTask α} {posts : Nat} {log : List Entry}

theorem perm {other : List (FunctionTask α)} (same : hands.Perm other) (b : Book hands queue posts log) :
    Book other queue posts log := by
  have ids := same.map FunctionTask.id
  exact ⟨b.numbered,ids.nodup_iff.mp b.distinct,fun k => (b.running k).trans ids.mem_iff,b.finished⟩

theorem post (b : Book hands queue posts log) (job : α) : Book hands (queue ++ [⟨posts,job⟩]) (posts+1) log := by
  refine ⟨?_,b.distinct,b.running,b.finished⟩
  rw [List.map_append,← List.append_assoc,b.numbered,List.range_succ]
  rfl

theorem earlier (b : Book hands queue posts log) (queued : t ∈ queue) : ∀ k ∈ starts log, k < t.id := by
  have sorted : (starts log ++ queue.map FunctionTask.id).Pairwise (· < ·) := by
    rw [b.numbered]
    exact List.pairwise_lt_range
  exact fun k started => (List.pairwise_append.mp sorted).2.2 k started t.id (List.mem_map_of_mem queued)

theorem below (b : Book hands queue posts log) (queued : t ∈ queue) : t.id < posts := by
  have member : t.id ∈ starts log ++ queue.map FunctionTask.id :=
    List.mem_append_right _ (List.mem_map_of_mem queued)
  rw [b.numbered] at member
  exact List.mem_range.mp member

theorem take (b : Book hands (t::rest) posts log) : Book (t::hands) rest posts (log ++ [.started t.id]) := by
  have fresh : t.id ∉ starts log := fun started => Nat.lt_irrefl _ (b.earlier List.mem_cons_self _ started)
  refine ⟨?_,?_,?_,?_⟩
  · rw [startsStarted,← b.numbered]
    simp
  · refine List.nodup_cons.mpr ⟨?_,b.distinct⟩
    exact fun held => fresh ((b.running t.id).mpr held).1
  · intro k
    rw [startsStarted,List.map_cons,List.mem_cons,← b.running k]
    by_cases same : k = t.id
    · subst same
      have unfinished : Entry.finished t.id ∉ log := fun ended => fresh (b.finished t.id ended)
      simp [unfinished]
    · simp [same]
  · intro k finished
    rw [startsStarted]
    exact List.mem_append_left _ (b.finished k (by simpa using finished))

theorem finish (b : Book (t::hands) queue posts log) : Book hands queue posts (log ++ [.finished t.id]) := by
  obtain ⟨absent,distinct⟩ := List.nodup_cons.mp b.distinct
  have started := ((b.running t.id).mpr List.mem_cons_self).1
  refine ⟨?_,distinct,?_,?_⟩
  · rw [startsFinished]
    exact b.numbered
  · intro k
    have known := b.running k
    rw [startsFinished]
    by_cases same : k = t.id
    · subst same
      simpa using absent
    · simpa [same] using known
  · intro k finished
    rw [startsFinished]
    rcases List.mem_append.mp finished with before | now
    · exact b.finished k before
    · cases List.mem_singleton.mp now
      exact started

theorem head (b : Book hands (t::rest) posts log) {j : Nat} (before : j < t.id) : j ∈ starts log := by
  have sorted : (starts log ++ (t::rest).map FunctionTask.id).Pairwise (· < ·) := by
    rw [b.numbered]
    exact List.pairwise_lt_range
  have posted : j < posts := Nat.lt_trans before (b.below List.mem_cons_self)
  have member : j ∈ starts log ++ (t::rest).map FunctionTask.id := by
    rw [b.numbered]
    exact List.mem_range.mpr posted
  rcases List.mem_append.mp member with started | queued
  · exact started
  · rcases List.mem_cons.mp queued with same | later
    · omega
    · have after := (List.pairwise_cons.mp (List.pairwise_append.mp sorted).2.1).1 j later
      omega

/- Every task that was posted is in the queue, in a hand or finished. -/
theorem placed (b : Book hands queue posts log) {k : Nat} (posted : k < posts) :
    k ∈ queue.map FunctionTask.id ∨ k ∈ hands.map FunctionTask.id ∨ .finished k ∈ log := by
  have member : k ∈ starts log ++ queue.map FunctionTask.id := by
    rw [b.numbered]
    exact List.mem_range.mpr posted
  rcases List.mem_append.mp member with started | queued
  · by_cases finished : Entry.finished k ∈ log
    · exact .inr (.inr finished)
    · exact .inr (.inl ((b.running k).mp ⟨started,finished⟩))
  · exact .inl queued

end Book

/- What every step keeps, whatever the order of the steps: `flag` is Stop's, and Stop
returns after the loop. -/
structure Tracked (s : Owner α) : Prop where
  book : Booked s
  asked : s.flag = true ↔ s.stopper ≠ .idle
  left : s.loop = .exited → s.flag = true
  returned : ∀ due, s.stopper = .returned due → s.loop = .exited ∧ due ≤ s.posts

theorem Tracked.open {s : Owner α} (inv : Tracked s) (stays : s.loop ≠ .exited) (due : Nat) :
    s.stopper ≠ .returned due := fun back => stays (inv.returned due back).1

section
variable {s u : Owner α} {m : Move α}

theorem bookedControl {c : Control} (b : Booked s) (ok : Controlled .stackThread s c u) : Booked u := by
  have same (hands : s.hands.Perm u.hands) : Book u.hands s.queue s.posts s.log := Book.perm hands b
  cases ok with
  | leave place asked => exact same (by simp [Owner.hands,Loop.hand,place])
  | poll place unasked => exact same (by simp [Owner.hands,Loop.hand,place])
  | null place empty => exact same (by simp [Owner.hands,Loop.hand,place])
  | @take t rest place queued =>
    have next : Book (t::s.hands) rest s.posts (s.log ++ [.started t.id]) := Book.take (queued ▸ b)
    exact Book.perm (by simp [Owner.hands,Owner.take,Loop.hand,place]) next
  | askShutdown user place => cases user
  | stop stack place => exact same (by simp [Owner.hands,Stopper.hand,place])
  | stopNull place empty => exact same (by simp [Owner.hands,Stopper.hand,place])
  | @stopTake t rest place queued =>
    have next : Book (t::s.hands) rest s.posts (s.log ++ [.started t.id]) := Book.take (queued ▸ b)
    refine Book.perm ?_ next
    simp only [Owner.hands,Owner.take,Stopper.hand,place,Option.toList_none,List.append_nil,Option.toList_some]
    exact (List.perm_append_singleton t s.loop.hand.toList).symm
  | join place left => exact same (by simp [Owner.hands,Stopper.hand,place])

theorem bookedStep (b : Booked s) (ok : Step .stackThread s m u) : Booked u := by
  cases ok with
  | post job => exact Book.post b job
  | control ok => exact bookedControl b ok
  | @finish t o place =>
    have shape : s.hands = t::s.stopper.hand.toList := by simp [Owner.hands,Loop.hand,place]
    have last : Book s.stopper.hand.toList s.queue s.posts (s.log ++ [.finished t.id]) :=
      Book.finish (shape ▸ b)
    cases o with
    | returned => exact last
    | caught => exact last
    | escaped => exact b
  | @stopFinish t threw place =>
    have shape : s.hands.Perm (t::s.loop.hand.toList) := by
      simp only [Owner.hands,Stopper.hand,place,Option.toList_some]
      exact List.perm_append_singleton t s.loop.hand.toList
    cases threw with
    | true => exact b
    | false =>
      refine Book.perm ?_ (Book.finish (Book.perm shape b))
      simp [Owner.hands,Owner.stopFinish,Owner.end,Stopper.hand]

theorem trackedStep (inv : Tracked s) (ok : Step .stackThread s m u) : Tracked u := by
  have booked := bookedStep inv.book ok
  cases ok with
  | post job =>
    refine ⟨booked,inv.asked,inv.left,fun due back => ?_⟩
    exact ⟨(inv.returned due back).1,Nat.le_succ_of_le (inv.returned due back).2⟩
  | control ok =>
    cases ok with
    | leave place asked => exact ⟨booked,inv.asked,fun _ => asked,fun due back => ⟨rfl,(inv.returned due back).2⟩⟩
    | poll place unasked =>
      exact ⟨booked,inv.asked,(by intro h; cases h),fun due back => absurd back (inv.open (by simp [place]) due)⟩
    | null place empty =>
      exact ⟨booked,inv.asked,(by intro h; cases h),fun due back => absurd back (inv.open (by simp [place]) due)⟩
    | take place queued =>
      exact ⟨booked,inv.asked,(by intro h; cases h),fun due back => absurd back (inv.open (by simp [place]) due)⟩
    | askShutdown user place => cases user
    | stop stack place => exact ⟨booked,by simp,fun _ => rfl,(by intro due back; cases back)⟩
    | stopNull place empty =>
      exact ⟨booked,by simpa [place] using inv.asked,inv.left,(by intro due back; cases back)⟩
    | stopTake place queued =>
      exact ⟨booked,by simpa [place,Owner.take] using inv.asked,inv.left,(by intro due back; cases back)⟩
    | join place left =>
      refine ⟨booked,by simpa [place] using inv.asked,inv.left,fun due back => ?_⟩
      cases back
      exact ⟨left,Nat.le_refl _⟩
  | @finish t o place =>
    have busy := inv.open (by simp [place])
    cases o with
    | returned => exact ⟨booked,inv.asked,(by intro h; cases h),fun due back => absurd back (busy due)⟩
    | caught => exact ⟨booked,inv.asked,(by intro h; cases h),fun due back => absurd back (busy due)⟩
    | escaped => exact ⟨booked,inv.asked,inv.left,inv.returned⟩
  | @stopFinish t threw place =>
    cases threw with
    | true => exact ⟨booked,inv.asked,inv.left,inv.returned⟩
    | false =>
      have asked : s.flag = true := inv.asked.mpr (by simp [place])
      exact ⟨booked,by simp [Owner.stopFinish,Owner.end,asked],inv.left,(by intro due back; cases back)⟩

theorem inOrderAppend {log : List Entry} {e : Entry} (order : InOrder log)
    (next : ∀ k, e = .started k → ∀ j, j < k → .finished j ∈ log) : InOrder (log ++ [e]) := by
  intro i k found j before
  rcases grownCases found with old | ⟨rfl,new⟩
  · have inside := (List.getElem?_eq_some_iff.mp old).1
    rw [List.take_append_of_le_length (Nat.le_of_lt inside)]
    exact order i k old j before
  · rw [List.take_left]
    exact next k new.symm j before

theorem inOrderLast {log : List Entry} {k : Nat} (order : InOrder (log ++ [.started k])) (j : Nat)
    (before : j < k) : .finished j ∈ log := by
  have taken := order log.length k (by simp) j before
  rwa [List.take_left] at taken

/- What holds while every step is covered: one task runs at a time, and what is queued
before Stop returns will be taken. -/
structure Clean (s : Owner α) : Prop extends Tracked s where
  order : InOrder s.log
  alone : s.loop.hand = none ∨ s.stopper.hand = none
  watched : Stopped s = true ∨ s.queue = [] ∨ s.served .stackThread = true
  late : ∀ due, s.stopper = .returned due → ∀ t ∈ s.queue, due ≤ t.id

theorem cleanComplete (inv : Clean s) : Complete s := by
  intro due back k before
  obtain ⟨left,bound⟩ := inv.returned due back
  rcases inv.book.placed (Nat.lt_of_lt_of_le before bound) with queued | held | finished
  · obtain ⟨t,member,rfl⟩ := List.mem_map.mp queued
    have after := inv.late due back t member
    omega
  · simp [Owner.hands,Loop.hand,Stopper.hand,left,back] at held
  · exact finished

/- The task at the head may start when no hand holds one. -/
theorem takeInOrder {t : FunctionTask α} {rest : List (FunctionTask α)} (inv : Clean s)
    (queued : s.queue = t::rest) (free : s.hands = []) : InOrder (s.log ++ [.started t.id]) := by
  refine inOrderAppend inv.order ?_
  intro k same j before
  cases same
  have b := inv.book
  have started := Book.head (queued ▸ b : Book s.hands (t::rest) s.posts s.log) before
  by_cases finished : Entry.finished j ∈ s.log
  · exact finished
  · have held := (b.running j).mp ⟨started,finished⟩
    simp [free] at held

theorem finishInOrder (t : FunctionTask α) (order : InOrder s.log) : InOrder (s.log ++ [.finished t.id]) :=
  inOrderAppend order (by intro k same; cases same)

theorem cleanStep (inv : Clean s) (covered : Covered s m) (ok : Step .stackThread s m u) : Clean u := by
  have tracked := trackedStep inv.toTracked ok
  cases ok with
  | post job =>
    refine ⟨tracked,inv.order,inv.alone,?_,?_⟩
    · exact covered.elim .inl (fun served => .inr (.inr served))
    · intro due back t member
      rcases List.mem_append.mp member with old | new
      · exact inv.late due back t old
      · cases List.mem_singleton.mp new
        exact (inv.returned due back).2
  | control ok =>
    cases ok with
    | leave place asked =>
      refine ⟨tracked,inv.order,.inl rfl,?_,inv.late⟩
      simpa [Owner.served,Owner.loopServes,Loop.serves,place,asked,Stopped] using inv.watched
    | poll place unasked =>
      exact ⟨tracked,inv.order,.inl rfl,.inr (.inr (by simp [Owner.served,Owner.loopServes,Loop.serves])),inv.late⟩
    | null place empty => exact ⟨tracked,inv.order,.inl rfl,.inr (.inl empty),inv.late⟩
    | @take t rest place queued =>
      have free : s.stopper.hand = none := by simpa [Covered,queued] using covered
      have order := takeInOrder inv queued (by simp [Owner.hands,Loop.hand,place,free])
      refine ⟨tracked,order,.inr free,.inr (.inr (by simp [Owner.served,Owner.loopServes,Loop.serves])),?_⟩
      exact fun due back => absurd back (inv.open (by simp [place]) due)
    | askShutdown user place => cases user
    | stop stack place =>
      refine ⟨tracked,inv.order,.inr rfl,.inr (.inr (by simp [Owner.served,Stopper.drains])),?_⟩
      intro due back
      cases back
    | stopNull place empty =>
      refine ⟨tracked,inv.order,.inr rfl,.inr (.inl empty),?_⟩
      intro due back
      cases back
    | @stopTake t rest place queued =>
      have free : s.loop.hand = none := by simpa [Covered,queued] using covered
      have order := takeInOrder inv queued (by simp [Owner.hands,Stopper.hand,place,free])
      refine ⟨tracked,order,.inl free,.inr (.inr (by simp [Owner.served,Stopper.drains])),?_⟩
      intro due back
      cases back
    | join place left =>
      have empty : s.queue = [] := by
        simpa [Stopped,Owner.served,Owner.loopServes,Loop.serves,Stopper.drains,place,left] using inv.watched
      exact ⟨tracked,inv.order,.inr rfl,.inl rfl,by simp [empty]⟩
  | @finish t o place =>
    have busy := inv.open (by simp [place])
    cases o with
    | returned =>
      refine ⟨tracked,finishInOrder t inv.order,.inl rfl,.inr (.inr ?_),fun due back => absurd back (busy due)⟩
      simp [Owner.served,Owner.loopServes,Loop.serves,Owner.finish,Kind.next]
    | caught =>
      refine ⟨tracked,finishInOrder t inv.order,.inl rfl,.inr ?_,fun due back => absurd back (busy due)⟩
      rcases covered with unasked | drains | empty
      · exact .inr (by simp [Owner.served,Owner.loopServes,Loop.serves,Owner.finish,Owner.end,unasked])
      · exact .inr (by simp [Owner.served,Owner.finish,Owner.end,drains])
      · exact .inl empty
    | escaped => exact ⟨tracked,inv.order,inv.alone,inv.watched,inv.late⟩
  | @stopFinish t threw place =>
    cases threw with
    | true => exact ⟨tracked,inv.order,inv.alone,inv.watched,inv.late⟩
    | false =>
      refine ⟨tracked,finishInOrder t inv.order,.inr rfl,.inr (.inr ?_),(by intro due back; cases back)⟩
      simp [Owner.served,Owner.stopFinish,Stopper.drains]

/- A task nobody will take: the loop is at its end, Stop joins or has returned, and the
task counts for Stop. -/
structure Stranded (k : Nat) (s : Owner α) : Prop extends Tracked s where
  queued : k ∈ s.queue.map FunctionTask.id
  unserved : s.served .stackThread = false
  flagged : s.flag = true
  counts : ∀ due, s.stopper = .returned due → k < due

theorem strandedStep {k : Nat} (lost : Stranded k s) (ok : Step .stackThread s m u) : Stranded k u := by
  have tracked := trackedStep lost.toTracked ok
  have unserved := lost.unserved
  cases ok with
  | post job =>
    refine ⟨tracked,?_,unserved,lost.flagged,lost.counts⟩
    rw [Owner.postImpl,List.map_append]
    exact List.mem_append_left _ lost.queued
  | control ok =>
    cases ok with
    | leave place asked =>
      refine ⟨tracked,lost.queued,?_,asked,lost.counts⟩
      simpa [Owner.served,Owner.loopServes,Loop.serves,place,asked] using unserved
    | poll place unasked => simp [lost.flagged] at unasked
    | null place empty => simp [Owner.served,Owner.loopServes,Loop.serves,place] at unserved
    | take place queued => simp [Owner.served,Owner.loopServes,Loop.serves,place] at unserved
    | askShutdown user place => cases user
    | stop stack place => exact absurd place (lost.asked.mp lost.flagged)
    | stopNull place empty => simp [Owner.served,Stopper.drains,place] at unserved
    | stopTake place queued => simp [Owner.served,Stopper.drains,place] at unserved
    | join place left =>
      refine ⟨tracked,lost.queued,?_,lost.flagged,?_⟩
      · simpa [Owner.served,Owner.loopServes,Stopper.drains,place] using unserved
      · intro due back
        cases back
        obtain ⟨t,member,rfl⟩ := List.mem_map.mp lost.queued
        exact Book.below lost.book member
  | finish o place => simp [Owner.served,Owner.loopServes,Loop.serves,place] at unserved
  | stopFinish threw place => simp [Owner.served,Stopper.drains,place] at unserved

theorem strandedIncomplete {k due : Nat} (lost : Stranded k s) (back : s.stopper = .returned due) : ¬ Complete s := by
  intro complete
  have started := lost.book.finished k (complete due back k (lost.counts due back))
  obtain ⟨t,member,same⟩ := List.mem_map.mp lost.queued
  have before := lost.book.earlier member k started
  omega

/- A task taken while another runs starts too early. -/
theorem takeEarly {t : FunctionTask α} {rest : List (FunctionTask α)} (inv : Tracked s)
    (queued : s.queue = t::rest) (busy : s.hands ≠ []) : ¬ InOrder (s.log ++ [.started t.id]) := by
  intro order
  obtain ⟨other,held⟩ := List.exists_mem_of_ne_nil _ busy
  obtain ⟨started,unfinished⟩ := (inv.book.running other.id).mpr (List.mem_map_of_mem held)
  have before := inv.book.earlier (queued ▸ List.mem_cons_self) other.id started
  exact unfinished (inOrderLast order other.id before)

/- Where a step is not covered, the order is broken at once or a task is stranded. -/
theorem uncoveredStep (inv : Tracked s) (bare : ¬ Covered s m) (ok : Step .stackThread s m u) :
    ¬ InOrder u.log ∨ ∃ k, Stranded k u := by
  have tracked := trackedStep inv ok
  cases ok with
  | post job =>
    obtain ⟨unreturned,unserved⟩ := not_or.mp bare
    have unserved := Bool.eq_false_iff.mpr unserved
    have asked : s.flag = true := by
      cases place : s.loop with
      | isShutdown => simpa [Owner.served,Owner.loopServes,Loop.serves,place] using (Bool.or_eq_false_iff.mp unserved).1
      | getNext => simp [Owner.served,Owner.loopServes,Loop.serves,place] at unserved
      | running t => simp [Owner.served,Owner.loopServes,Loop.serves,place] at unserved
      | exited => exact inv.left place
    refine .inr ⟨s.posts,tracked,by simp [Owner.postImpl],unserved,asked,?_⟩
    intro due back
    have back : s.stopper = .returned due := back
    simp [Stopped,back] at unreturned
  | control ok =>
    cases ok with
    | leave place asked => exact absurd trivial bare
    | poll place unasked => exact absurd trivial bare
    | null place empty => exact absurd (.inr empty) bare
    | take place queued =>
      obtain ⟨busy,-⟩ := not_or.mp bare
      refine .inl (takeEarly inv queued fun free => busy ?_)
      simpa [Owner.hands,Loop.hand,place] using free
    | askShutdown user place => cases user
    | stop stack place => exact absurd trivial bare
    | stopNull place empty => exact absurd (.inr empty) bare
    | stopTake place queued =>
      obtain ⟨busy,-⟩ := not_or.mp bare
      refine .inl (takeEarly inv queued fun free => busy ?_)
      simpa [Owner.hands,Stopper.hand,place] using free
    | join place left => exact absurd trivial bare
  | @finish t o place =>
    cases o with
    | returned => exact absurd trivial bare
    | caught =>
      obtain ⟨unasked,rest⟩ := not_or.mp bare
      obtain ⟨idle,left⟩ := not_or.mp rest
      have asked : s.flag = true := by simpa using unasked
      have idle := Bool.eq_false_iff.mpr idle
      obtain ⟨first,others,queued⟩ := List.exists_cons_of_ne_nil left
      refine .inr ⟨first.id,tracked,by simp [Owner.finish,Owner.end,queued],?_,?_,?_⟩
      · simpa [Owner.served,Owner.loopServes,Loop.serves,Owner.finish,Owner.end] using ⟨asked,idle⟩
      · exact asked
      · exact fun due back => absurd back (inv.open (by simp [place]) due)
    | escaped => exact absurd trivial bare
  | stopFinish threw place => exact absurd trivial bare

end

theorem trackedStart : Tracked (.start : Owner α) := by
  refine ⟨⟨rfl,List.nodup_nil,?_,?_⟩,by simp [Owner.start],?_,?_⟩
  · intro k
    simp [Owner.start,Owner.hands,Loop.hand,Stopper.hand,starts]
  · intro k finished
    cases finished
  · intro left
    cases left
  · intro due back
    cases back

theorem cleanStart : Clean (.start : Owner α) := by
  refine ⟨trackedStart,?_,.inl rfl,.inr (.inl rfl),?_⟩
  · intro i k found
    simp [Owner.start] at found
  · intro due back
    cases back

theorem atMostOnce {s : Owner α} (inv : Tracked s) : AtMostOnce s := by
  have whole : (starts s.log ++ s.queue.map FunctionTask.id).Nodup := by
    rw [inv.book.numbered]
    exact List.nodup_range
  exact (List.nodup_append.mp whole).1

theorem strandedAtEnd {s t : Owner α} {k due : Nat} {moves : List (Move α)} (lost : Stranded k s)
    (ok : run (step .stackThread) s moves = some t) (back : t.stopper = .returned due) : ¬ Complete t := by
  have keep : Keeps (step (α := α) .stackThread) (fun _ _ => True) (Stranded k) :=
    fun a e b inv _ next => strandedStep inv (stepCases next).2
  have visits : Visits (step .stackThread) (Stranded k) s moves :=
    visitsOfKeeps keep lost (meetsOfEvents (fun _ _ _ => trivial) s)
  exact strandedIncomplete (visitsLast visits ok) back

/- In a run that ends with Stop returned, the order and the completeness need every step
to be covered. -/
theorem coveredOfKept {s t : Owner α} {due : Nat} {moves : List (Move α)} (inv : Tracked s)
    (ok : run (step .stackThread) s moves = some t) (back : t.stopper = .returned due)
    (kept : Visits (step .stackThread) TasksKept s moves) : Meets (step .stackThread) Covered s moves := by
  induction moves generalizing s with
  | nil => trivial
  | cons m moves ih =>
    simp only [run] at ok
    have rest := kept.2
    simp only [Meets]
    split <;> rename_i next
    · simp only [next] at ok rest
      have moved := (stepCases next).2
      by_cases covered : Covered s m
      · exact ⟨covered,ih (trackedStep inv moved) ok rest⟩
      · rcases uncoveredStep inv covered moved with disorder | ⟨k,lost⟩
        · exact absurd (visitsFirst rest).1 disorder
        · exact absurd (visitsLast rest ok).2 (strandedAtEnd lost ok back)
    · trivial

/- Whatever the order of the steps, no task runs twice. While every step is covered, the
tasks run in order and Stop leaves none behind; a run that ends with Stop returned keeps
both only so. -/
theorem tasksKeptExactly (moves : List (Move α)) :
    Visits (step .stackThread) AtMostOnce .start moves ∧
    (Meets (step .stackThread) Covered .start moves → Visits (step .stackThread) TasksKept .start moves) ∧
    (∀ t due, run (step .stackThread) .start moves = some t → t.stopper = .returned due →
      Visits (step .stackThread) TasksKept .start moves → Meets (step .stackThread) Covered .start moves) := by
  refine ⟨?_,?_,?_⟩
  · have keep : Keeps (step (α := α) .stackThread) (fun _ _ => True) Tracked :=
      fun a e b inv _ next => trackedStep inv (stepCases next).2
    exact visitsMono (fun _ => atMostOnce) (visitsOfKeeps keep trackedStart (meetsOfEvents (fun _ _ _ => trivial) _))
  · intro covered
    have keep : Keeps (step (α := α) .stackThread) Covered Clean :=
      fun a e b inv covered next => cleanStep inv covered (stepCases next).2
    exact visitsMono (fun _ inv => ⟨inv.order,cleanComplete inv⟩) (visitsOfKeeps keep cleanStart covered)
  · exact fun t due ok back kept => coveredOfKept trackedStart ok back kept

def orderlyStop : List (Move Unit) :=
  [.post (),.post (),.control .isShutdown,.control .getNext,.finish .returned,.control .stop,.control .getNext,
    .finish .returned,.control .getNext,.control .isShutdown,.control .stopGetNext,.control .join]

theorem orderlyStopKept : Visits (step .stackThread) TasksKept .start orderlyStop ∧
    Meets (step .stackThread) Covered .start orderlyStop := by
  have covered : Meets (step .stackThread) Covered .start orderlyStop := by decide
  have kept := (tasksKeptExactly orderlyStop).2.1 covered
  exact ⟨kept,(tasksKeptExactly orderlyStop).2.2 _ 2 rfl rfl kept⟩

/- Stop takes the second task while the loop runs the first. -/
def overlappingStop : List (Move Unit) :=
  [.post (),.post (),.control .isShutdown,.control .getNext,.control .stop,.control .stopGetNext]

/- The task is posted after Stop and the loop have both found the queue empty. -/
def latePost : List (Move Unit) :=
  [.control .isShutdown,.control .stop,.control .stopGetNext,.control .getNext,.post (),.control .isShutdown,
    .control .join]

theorem tasksLost :
    (∃ s, run (step .stackThread) .start overlappingStop = some s ∧ s.log = [.started 0,.started 1] ∧ ¬ InOrder s.log) ∧
    ∃ s, run (step .stackThread) .start latePost = some s ∧ s.stopper = .returned 1 ∧ s.log = [] ∧ ¬ Complete s := by
  constructor
  · refine ⟨_,rfl,rfl,?_⟩
    intro order
    have early := order 1 1 rfl 0 (by decide)
    revert early
    decide
  · refine ⟨_,rfl,rfl,rfl,?_⟩
    intro complete
    have missing := complete 1 rfl 0 (by decide)
    revert missing
    decide

end RtcCall.StackTasks
