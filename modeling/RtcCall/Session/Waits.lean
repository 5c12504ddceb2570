import RtcCall.Session.Invoke
import RtcCall.Session.StackTasks
import RtcCall.Session.Turns

/-! How long the threads of Invoke wait. A caller waits for its turn in the queue and for
no post that comes after it; and Stop always comes to its end, even when the tasks that it
runs call Invoke themselves. -/
namespace RtcCall.Waits
open StepRuns OwnerThread Invoke Turns

section
variable {σ E V A : Type}

def waiting (c : Nat) (w : World σ E V A) : Bool := w.calls[c]?.any (·.result.isNone)

/- The task of a call. -/
def taskOf (c : Nat) (t : FunctionTask (Job σ E A)) : Bool := t.job.call == some c

/- The steps of the thread's loop. -/
def byLoop : Event σ E A → Bool
  | .control .isShutdown | .control .getNext | .finish => true
  | _ => false

/- And those of Stop, once it has been called. -/
def ofThreads : Event σ E A → Bool
  | .control .isShutdown | .control .getNext | .finish | .control .stopGetNext | .control .join | .stopFinish => true
  | _ => false

def posts : Event σ E A → Bool
  | .post _ | .invoke .stopTask _ | .invoke .other _ => true
  | _ => false

def loopLeft : Loop (Job σ E A) → Nat
  | .exited => 0
  | .isShutdown => 1
  | .getNext => 2
  | .running _ => 3

def stopLeft : Stopper (Job σ E A) → Nat
  | .idle | .returned _ => 0
  | .joining => 1
  | .getNext => 2
  | .running _ => 3

/- The steps of the loop and of Stop that are left, once no poll finds the flag unset. -/
def stopSteps (o : Owner (Job σ E A)) : Nat := 3 * o.queue.length + loopLeft o.loop + stopLeft o.stopper

variable {fn : A → Fn σ E V} {caught : E → Bool} {kind : Kind} {w u : World σ E V A} {c : Nat} {e : Event σ E A}

/- A DUM thread has no Stop; the StackThread's is called with the flag. -/
def Calm (kind : Kind) (w : World σ E V A) : Prop := kind = .stackThread → StackTasks.Tracked w.owner

/- The step of the thread in a step of its callers; a direct call is none. -/
theorem ranOwner (ran : Ran fn caught kind w e u) : (byLoop e = false ∧ u.owner = w.owner) ∨
    ∃ m, Step kind w.owner m u.owner ∧ ofLoop m = byLoop e ∧
      ∀ r, m = .finish r → e = .finish ∧ ∀ t, w.owner.loop = .running t → r = (w.perform fn caught t.job).1 := by
  cases ran with
  | post f => exact .inr ⟨_,.post _,rfl,by intro r same; cases same⟩
  | direct args => exact .inl ⟨rfl,rfl⟩
  | promise args calling elsewhere => exact .inr ⟨_,.post _,rfl,by intro r same; cases same⟩
  | @control c o ok => exact .inr ⟨_,.control ok,by cases c <;> rfl,by intro r same; cases same⟩
  | @finish t place =>
    refine .inr ⟨_,.finish _ place,rfl,?_⟩
    intro r same
    cases same
    refine ⟨rfl,?_⟩
    intro x also
    cases Loop.running.inj (place.symm.trans also)
    rfl
  | stopFinish place free => exact .inr ⟨_,.stopFinish _ place,rfl,by intro r same; cases same⟩

theorem calmRan (calm : Calm kind w) (ran : Ran fn caught kind w e u) : Calm kind u := by
  intro stack
  subst stack
  rcases ranOwner ran with ⟨_,same⟩ | ⟨m,moved,_⟩
  · rw [same]
    exact calm rfl
  · exact StackTasks.trackedStep (calm rfl) moved

/- What is kept along a run whose steps are answered. -/
structure Kept (fn : A → Fn σ E V) (kind : Kind) (w : World σ E V A) : Prop where
  inv : Inv fn kind w
  calm : Calm kind w

theorem keepsKept : Keeps (step fn caught kind) (Answered fn caught kind) (Kept fn kind) :=
  fun _ _ _ kept answered ok =>
    ⟨ranInv kept.inv answered (ranCases ok),calmRan kept.calm (ranCases ok)⟩

theorem startKept (data : σ) : Kept fn kind (.start data : World σ E V A) :=
  ⟨startInv data,fun _ => StackTasks.trackedStart⟩

theorem Kept.idle (kept : Kept fn kind w) (unasked : w.owner.flag = false) : w.owner.stopper = .idle := by
  cases kind with
  | dumThread => exact kept.inv.user rfl
  | stackThread =>
    have tracked := kept.calm rfl
    by_contra busy
    rw [tracked.asked.mpr busy] at unasked
    cases unasked

theorem waitsFor (waits : waiting c w = true) : ∃ call, w.calls[c]? = some call ∧ call.result = none := by
  unfold waiting at waits
  cases found : w.calls[c]? with
  | none => rw [found] at waits; cases waits
  | some call =>
    rw [found] at waits
    exact ⟨call,rfl,Option.isNone_iff_eq_none.mp waits⟩

/- The task of a call that waits. -/
theorem Kept.task (kept : Kept fn kind w) (waits : waiting c w = true) :
    ∃ t ∈ w.owner.held, t.job.call = some c := by
  obtain ⟨call,found,unanswered⟩ := waitsFor waits
  rcases kept.inv.ledger.answered c call found with ⟨r,before,after,result,_⟩ | ⟨_,member⟩
  · rw [unanswered] at result
    cases result
  · obtain ⟨t,held,owns⟩ := List.mem_filterMap.mp member
    exact ⟨t,held,owns⟩

theorem performBack {t : FunctionTask (Job σ E A)} (kept : Kept fn kind w) (held : t ∈ w.owner.held)
    (now : waiting c (w.perform fn caught t.job).2 = true) : waiting c w = true := by
  cases job : t.job with
  | plain f =>
    rw [job] at now
    exact now
  | invoke d args =>
    rw [job] at now
    by_cases same : d = c
    · subst same
      have own := kept.inv.ledger.known t held d args job
      simp [waiting,own]
    · simpa [waiting,World.perform,World.ran,List.getElem?_modify_ne _ _ same] using now

theorem waitingBack (kept : Kept fn kind w) (known : c < w.calls.length) (ran : Ran fn caught kind w e u)
    (now : waiting c u = true) : waiting c w = true := by
  have old {last : Call σ E V A} : (w.calls ++ [last])[c]? = w.calls[c]? := List.getElem?_append_left known
  cases ran with
  | post f => exact now
  | direct args => rwa [waiting,World.direct,old] at now
  | promise args calling elsewhere => rwa [waiting,World.promise,old] at now
  | control ok => exact now
  | finish place => exact performBack kept (by simp [Owner.held,Owner.hands,Loop.hand,place]) now
  | stopFinish place free => exact performBack kept (by simp [Owner.held,Owner.hands,Stopper.hand,place]) now

theorem knownRan (known : c < w.calls.length) (ran : Ran fn caught kind w e u) : c < u.calls.length := by
  have perform (j : Job σ E A) : c < (w.perform fn caught j).2.calls.length := by
    cases j with
    | plain f => exact known
    | invoke d args => simpa [World.perform,World.ran] using known
  cases ran with
  | post f => exact known
  | direct args =>
    simp only [World.direct,List.length_append]
    omega
  | promise args calling elsewhere =>
    simp only [World.promise,List.length_append]
    omega
  | control ok => exact known
  | @finish t place => exact perform t.job
  | @stopFinish t place free => exact perform t.job

theorem survivesEnds {j : Job σ E A} (survives : Survives fn caught w j) : (w.perform fn caught j).1 ≠ .escaped := by
  cases j with
  | plain f =>
    cases thrown : (f w.data).1 with
    | ok v => simp [World.perform,thrown,outcome]
    | error e => simp [World.perform,thrown,outcome,(survives e thrown).1]
  | invoke d args =>
    rw [show (w.perform fn caught (.invoke d args)).1 = .returned from outcomeOk survives]
    intro back
    cases back

/- The task that ends answers its own call only. -/
theorem otherRan {t : FunctionTask (Job σ E A)} (kept : Kept fn kind w) (answered : Answered fn caught kind w .finish)
    (place : w.owner.loop = .running t) (ran : Ran fn caught kind w .finish u) (still : waiting c u = true) :
    taskOf c t = false := by
  cases own : taskOf c t with
  | false => rfl
  | true =>
    obtain ⟨args,job⟩ := callOf (beq_iff_eq.mp own)
    have survives := answered t (by rw [place]; rfl)
    rw [job] at survives
    obtain ⟨v,returns⟩ := survives
    have task := kept.inv.ledger.known t (by simp [Owner.held,Owner.hands,Loop.hand,place]) c args job
    cases ran with
    | finish there =>
      cases Loop.running.inj (there.symm.trans place)
      simp [waiting,job,World.perform,World.ran,task,returns,setValue] at still

/- While nobody asks the thread to shut down, each step of its loop brings the call nearer,
and no other step takes it further away. -/
theorem turnsDrop (kept : Kept fn kind w) (answered : Answered fn caught kind w e) (unasked : w.owner.flag = false)
    (waits : waiting c w = true) (ran : Ran fn caught kind w e u) (still : waiting c u = true) :
    (if byLoop e then 1 else 0) + turns (taskOf c) u.owner ≤ turns (taskOf c) w.owner := by
  rcases ranOwner ran with ⟨none,same⟩ | ⟨m,moved,which,finishes⟩
  · rw [none,same]
    exact Nat.le_of_eq (Nat.zero_add _)
  · rw [← which]
    obtain ⟨t,held,owns⟩ := kept.task waits
    refine turnsStep unasked (kept.idle unasked) ⟨t,held,by simp [taskOf,owns]⟩ ?_ ?_ moved
    · intro escaped
      subst escaped
      obtain ⟨x,place⟩ := finishRuns moved
      obtain ⟨rfl,outcome⟩ := finishes _ rfl
      exact survivesEnds (answered x (by rw [place]; rfl)) (outcome x place).symm
    · intro x r place finish
      obtain ⟨rfl,_⟩ := finishes r finish
      exact otherRan kept answered place ran still

/- The answered call has had its one run, with the result of a direct call. -/
theorem answeredOf (kept : Kept fn kind w) (known : c < w.calls.length) (answered : waiting c w = false) :
    ∃ call r before after, w.calls[c]? = some call ∧ call.result = some r ∧ call.runs = [(before,after)] ∧
      fn call.args before = (r,after) := by
  have found := List.getElem?_eq_getElem known
  rcases kept.inv.ledger.answered c _ found with ⟨r,before,after,result,once,direct⟩ | ⟨unanswered,_⟩
  · exact ⟨_,r,before,after,found,result,once,direct⟩
  · simp [waiting,found,unanswered] at answered

/- Where a run stands whose steps are answered. -/
theorem keptRun {data : σ} {before after : List (Event σ E A)}
    (ran : run (step fn caught kind) (.start data) before = some w)
    (answered : Meets (step fn caught kind) (Answered fn caught kind) (.start data) (before ++ after)) :
    Kept fn kind w ∧ Visits (step fn caught kind) (Kept fn kind) w after ∧
      Meets (step fn caught kind) (Answered fn caught kind) w after := by
  obtain ⟨first,second⟩ := (meetsAppend ran).mp answered
  have here := visitsLast (visitsOfKeeps keepsKept (startKept data) first) ran
  exact ⟨here,visitsOfKeeps keepsKept here second,second⟩

end

/- A caller of Invoke is answered in its turn: whatever is posted behind it, and however
the threads are interleaved, no more than three steps of the loop for each task before its
own and five more go by before it has its result, which is the function's. -/
theorem callersReturn {σ E V A : Type} (fn : A → Fn σ E V) (caught : E → Bool) (kind : Kind) (data : σ)
    (before after : List (Event σ E A)) (w u : World σ E V A) (c : Nat)
    (ran : run (step fn caught kind) (.start data) before = some w)
    (went : run (step fn caught kind) w after = some u)
    (answered : Meets (step fn caught kind) (Answered fn caught kind) (.start data) (before ++ after))
    (unasked : Meets (step fn caught kind) (fun v _ => v.owner.flag = false) w after)
    (known : c < w.calls.length) (enough : 3 * ahead (taskOf c) w.owner.queue + 5 ≤ after.countP byLoop) :
    ∃ call r pre post, u.calls[c]? = some call ∧ call.result = some r ∧ call.runs = [(pre,post)] ∧
      fn call.args pre = (r,post) := by
  obtain ⟨_,kept,answering⟩ := keptRun ran answered
  have knows : Visits (step fn caught kind) (fun v => c < v.calls.length) w after :=
    visitsOfKeeps (C := fun _ _ => True) (fun _ _ _ known _ ok => knownRan known (ranCases ok)) known
      (meetsOfEvents (fun _ _ _ => trivial) w)
  have answers : ¬ waiting c u = true := by
    refine turnComes (P := fun v => waiting c v = true) (μ := fun v => turns (taskOf c) v.owner) (p := byLoop)
      ?_ ?_ (meetsBoth (meetsBoth (meetsBoth (meetsOfVisits kept) (meetsOfVisits knows)) answering) unasked) went ?_
    · exact fun v e x now ok still => waitingBack now.1.1.1 now.1.1.2 (ranCases ok) still
    · exact fun v e x now late still ok => turnsDrop now.1.1.1 now.1.2 now.2 late (ranCases ok) still
    · have most := turnsAtMost (p := taskOf c) w.owner
      omega
  exact answeredOf (visitsLast kept went) (visitsLast (P := fun v => c < v.calls.length) knows went)
    (Bool.eq_false_iff.mpr answers)

def length (_ : Unit) : Fn Nat Unit Nat := fun d => (.ok d,d+1)

/- A task is posted before the call and another behind it. -/
def posted : List (Event Nat Unit Unit) := [.post idleTask,.invoke .other ()]

def served : List (Event Nat Unit Unit) := [.control .isShutdown,.control .getNext,.post idleTask,.finish,
  .control .getNext,.finish,.control .getNext,.finish,.control .getNext]

theorem turnTaken : ∃ w u, run (step length (fun _ => false) .stackThread) (.start 0) posted = some w ∧
    run (step length (fun _ => false) .stackThread) w served = some u ∧
    ∃ call r pre post, u.calls[0]? = some call ∧ call.result = some r ∧ call.runs = [(pre,post)] ∧
      length call.args pre = (r,post) := by
  refine ⟨_,_,rfl,rfl,callersReturn length (fun _ => false) .stackThread 0 posted served _ _ 0 rfl rfl ?_ ?_ ?_ ?_⟩
  · refine And.intro trivial (And.intro rfl (And.intro trivial (And.intro trivial (And.intro trivial (And.intro ?_
      (And.intro trivial (And.intro ?_ (And.intro trivial (And.intro ?_ (And.intro trivial trivial))))))))))
    · rintro t ⟨⟩ e ⟨⟩
    · rintro t ⟨⟩
      exact ⟨_,rfl⟩
    · rintro t ⟨⟩ e ⟨⟩
  · decide
  · decide
  · decide
section
variable {σ E V A : Type} {fn : A → Fn σ E V} {caught : E → Bool} {kind : Kind} {w u : World σ E V A} {c : Nat}
  {e : Event σ E A}

/- The call that the task of Stop waits for is another than its own. -/
def Apart (w : World σ E V A) : Prop := w.blocked = true → ∀ t, w.owner.stopper.hand = some t →
  ∀ d, w.waits = some d → t.job.call ≠ some d

theorem finishStopper (o : Owner (Job σ E A)) (t : FunctionTask (Job σ E A)) (r : Outcome) :
    (o.finish kind t r).stopper = o.stopper := by
  cases r <;> rfl

theorem performUnblocks {t : FunctionTask (Job σ E A)} (kept : Kept fn kind w) (held : t ∈ w.owner.held)
    (blocked : (w.perform fn caught t.job).2.blocked = true) : w.blocked = true := by
  cases job : t.job with
  | plain f =>
    rw [job] at blocked
    exact blocked
  | invoke d args =>
    rw [job] at blocked
    exact ranUnblocks (kept.inv.ledger.known t held d args job) blocked

theorem performWaits (j : Job σ E A) : (w.perform fn caught j).2.waits = w.waits := by
  cases j <;> rfl

theorem directBlocked (kept : Kept fn kind w) (args : A) : (w.direct fn args).blocked = w.blocked := by
  cases waits : w.waits with
  | none => simp [World.direct,World.blocked,waits]
  | some d =>
    simp only [World.direct,World.blocked,waits]
    rw [List.getElem?_append_left (kept.inv.asleep d waits)]

/- The tasks in the hands were posted before the call that Stop's task waits for. -/
theorem heldBefore (kept : Kept fn kind w) {t : FunctionTask (Job σ E A)} (hand : w.owner.stopper.hand = some t) :
    t.job.call ≠ some w.calls.length := by
  intro owns
  have held : t ∈ w.owner.held := by simp [Owner.held,Owner.hands,hand]
  have before := kept.inv.ledger.bound (List.mem_filterMap.mpr ⟨t,held,owns⟩)
  exact Nat.lt_irrefl _ before

theorem apartRan (kept : Kept fn kind w) (apart : Apart w) (ran : Ran fn caught kind w e u) : Apart u := by
  intro blocked t hand d waits
  cases ran with
  | post f => exact apart blocked t hand d waits
  | direct args => exact apart ((directBlocked kept args).symm.trans blocked) t hand d waits
  | @promise caller args calling elsewhere =>
    simp only [World.promise] at waits
    split at waits
    · cases Option.some.inj waits
      exact heldBefore kept hand
    · rename_i other
      have before := (blockedPromise kept.inv caller args).symm.trans blocked
      exact apart (by simpa [other] using before) t hand d waits
  | control ok =>
    cases ok with
    | stopTake place queued =>
      have free := kept.inv.free (by rw [place]; rfl)
      rw [show w.blocked = true from blocked] at free
      cases free
    | stop stack place | stopNull place empty | join place left => cases hand
    | leave place asked | poll place unasked | null place empty | take place queued | askShutdown user place =>
      exact apart blocked t hand d waits
  | @finish x place =>
    have held : x ∈ w.owner.held := by simp [Owner.held,Owner.hands,Loop.hand,place]
    rw [finishStopper] at hand
    exact apart (performUnblocks kept held blocked) t hand d ((performWaits x.job).symm.trans waits)
  | @stopFinish x place free =>
    have held : x ∈ w.owner.held := by simp [Owner.held,Owner.hands,Stopper.hand,place]
    rw [performUnblocks kept held blocked] at free
    cases free

/- Every step of the two threads leaves less to do once the flag is set; a post adds one task. -/
theorem stopDrop (kept : Kept fn .stackThread w) (answered : Answered fn caught .stackThread w e)
    (asked : w.owner.flag = true) (ran : Ran fn caught .stackThread w e u) :
    (if ofThreads e then 1 else 0) + stopSteps u.owner ≤ stopSteps w.owner + if posts e then 3 else 0 := by
  have called := (kept.calm rfl).asked.mp asked
  cases ran with
  | post f =>
    simp [stopSteps,Owner.postImpl,ofThreads,posts]
    omega
  | direct args => simp [World.direct,ofThreads,posts]
  | @promise caller args calling elsewhere =>
    cases caller with
    | loopTask => cases elsewhere
    | stopTask | other =>
      simp [stopSteps,Owner.postImpl,ofThreads,posts]
      omega
  | control ok =>
    cases ok with
    | leave place _ =>
      simp [stopSteps,loopLeft,place,ofThreads,posts]
      omega
    | poll place unasked => rw [asked] at unasked; cases unasked
    | null place empty =>
      simp [stopSteps,loopLeft,place,ofThreads,posts]
      omega
    | take place queued =>
      simp [stopSteps,loopLeft,place,queued,ofThreads,posts,Owner.take]
      omega
    | askShutdown user place => cases user
    | stop stack place => exact absurd place called
    | stopNull place empty =>
      simp [stopSteps,stopLeft,place,ofThreads,posts]
      omega
    | stopTake place queued =>
      simp [stopSteps,stopLeft,place,queued,ofThreads,posts,Owner.take]
      omega
    | join place left =>
      simp [stopSteps,stopLeft,place,ofThreads,posts]
      omega
  | @finish t place =>
    have ends := survivesEnds (answered t (by rw [place]; rfl))
    cases r : (w.perform fn caught t.job).1 with
    | returned =>
      simp [stopSteps,loopLeft,place,ofThreads,posts,Owner.finish,Owner.end,Kind.next]
      omega
    | caught =>
      simp [stopSteps,loopLeft,place,ofThreads,posts,Owner.finish,Owner.end]
      omega
    | escaped => exact absurd r ends
  | @stopFinish t place free =>
    have survives := answered t (by rw [place]; rfl)
    have back : (w.perform fn caught t.job).1 = .returned := by
      cases job : t.job with
      | plain f =>
        rw [job] at survives
        exact outcomeOk survives
      | invoke d args =>
        rw [job] at survives
        exact outcomeOk survives
    simp [back,stopSteps,stopLeft,place,ofThreads,posts,Owner.stopFinish,Owner.end]
    omega

/- The loop has a step until it has ended. -/
theorem loopSteps (kept : Kept fn .stackThread w) (runs : w.owner.loop ≠ .exited) :
    ∃ e, ofThreads e = true ∧ (step fn caught .stackThread w e).isSome = true := by
  have live := kept.inv.live
  cases place : w.owner.loop with
  | exited => exact absurd place runs
  | isShutdown =>
    refine ⟨.control .isShutdown,rfl,?_⟩
    simp [Invoke.step,World.move,OwnerThread.step,live,Owner.control,place]
  | getNext =>
    refine ⟨.control .getNext,rfl,?_⟩
    simp [Invoke.step,World.move,OwnerThread.step,live,Owner.control,place]
  | running t =>
    refine ⟨.finish,rfl,?_⟩
    simp [Invoke.step,World.move,OwnerThread.step,performOwner,live,Loop.hand,place]

/- Stop waits for a call only while the loop will still run the call's task. -/
theorem blockedLoop (kept : Kept fn .stackThread w) (apart : Apart w) (blocked : w.blocked = true) :
    w.owner.loop ≠ .exited := by
  intro left
  cases waits : w.waits with
  | none => simp [World.blocked,waits] at blocked
  | some d =>
    have unanswered : waiting d w = true := by simpa [World.blocked,waiting,waits] using blocked
    obtain ⟨t,held,owns⟩ := kept.task unanswered
    simp only [Owner.held,Owner.hands,left,Loop.hand,Option.toList_none,List.nil_append] at held
    rcases List.mem_append.mp held with hand | queued
    · exact apart blocked t (Option.mem_toList.mp hand) d waits owns
    · have served := kept.inv.watched ⟨t,queued,by simp [owns]⟩
      simp [World.served,Owner.loopServes,Loop.serves,left,blocked] at served

theorem threadsStep (kept : Kept fn .stackThread w) (apart : Apart w) (asked : w.owner.flag = true) :
    StackTasks.Stopped w.owner = true ∨ ∃ e, ofThreads e = true ∧ (step fn caught .stackThread w e).isSome = true := by
  have live := kept.inv.live
  have called := (kept.calm rfl).asked.mp asked
  cases place : w.owner.stopper with
  | idle => exact absurd place called
  | returned due => exact .inl (by simp [StackTasks.Stopped,place])
  | getNext =>
    refine .inr ⟨.control .stopGetNext,rfl,?_⟩
    simp [Invoke.step,World.move,OwnerThread.step,live,Owner.control,place]
  | running t =>
    cases blocked : w.blocked with
    | true => exact .inr (loopSteps kept (blockedLoop kept apart blocked))
    | false =>
      refine .inr ⟨.stopFinish,rfl,?_⟩
      simp [Invoke.step,World.move,OwnerThread.step,performOwner,live,Stopper.hand,place,blocked]
  | joining =>
    by_cases left : w.owner.loop = .exited
    · refine .inr ⟨.control .join,rfl,?_⟩
      simp [Invoke.step,World.move,OwnerThread.step,live,Owner.control,place,left]
    · exact .inr (loopSteps kept left)

/- Once Stop has returned nobody waits for a promise. -/
theorem noneWaits (kept : Kept fn .stackThread w) (stopped : StackTasks.Stopped w.owner = true) (c : Nat) :
    waiting c w = false := by
  cases waits : waiting c w with
  | false => rfl
  | true =>
    cases place : w.owner.stopper with
    | returned due =>
      have left := ((kept.calm rfl).returned due place).1
      obtain ⟨t,held,owns⟩ := kept.task waits
      simp only [Owner.held,Owner.hands,left,place,Loop.hand,Stopper.hand,Option.toList_none,List.nil_append] at held
      have served := kept.inv.watched ⟨t,held,by simp [owns]⟩
      simp [World.served,Owner.loopServes,Loop.serves,left,place,Stopper.drains] at served
    | idle | getNext | running t | joining => simp [StackTasks.Stopped,place] at stopped

theorem askedRan (asked : w.owner.flag = true) (ran : Ran fn caught kind w e u) : u.owner.flag = true := by
  cases ran with
  | post f | direct args | promise args calling elsewhere => exact asked
  | control ok =>
    cases ok with
    | askShutdown user place | stop stack place => rfl
    | _ => exact asked
  | @finish t place =>
    cases r : (w.perform fn caught t.job).1 <;> exact asked
  | @stopFinish t place free =>
    cases r : (w.perform fn caught t.job).1 <;> exact asked

theorem stepsAtMost (o : Owner (Job σ E A)) : stopSteps o ≤ 3 * o.queue.length + 6 := by
  have loop : loopLeft o.loop ≤ 3 := by cases o.loop <;> simp [loopLeft]
  have stopper : stopLeft o.stopper ≤ 3 := by cases o.stopper <;> simp [stopLeft]
  simp only [stopSteps]
  omega

end

/- Stop has been called: its thread and the loop take no more than three steps for each
queued task and each new post, and six more, and until Stop has returned one of them can
take a step; then every caller has its result. -/
theorem stopEnds {σ E V A : Type} (fn : A → Fn σ E V) (caught : E → Bool) (data : σ)
    (before after : List (Event σ E A)) (w u : World σ E V A)
    (ran : run (step fn caught .stackThread) (.start data) before = some w)
    (went : run (step fn caught .stackThread) w after = some u)
    (answered : Meets (step fn caught .stackThread) (Answered fn caught .stackThread) (.start data) (before ++ after))
    (asked : w.owner.flag = true) :
    after.countP ofThreads ≤ 3 * w.owner.queue.length + 6 + 3 * after.countP posts ∧
    ((StackTasks.Stopped u.owner = true ∧ ∀ c, waiting c u = false) ∨
      ∃ e, ofThreads e = true ∧ (step fn caught .stackThread u e).isSome = true) := by
  obtain ⟨here,kept,answering⟩ := keptRun ran answered
  have flagged : Visits (step fn caught .stackThread) (fun v => v.owner.flag = true) w after :=
    visitsOfKeeps (C := fun _ _ => True) (fun _ _ _ asked _ ok => askedRan asked (ranCases ok)) asked
      (meetsOfEvents (fun _ _ _ => trivial) w)
  have apart : Apart u := by
    have keeps : Keeps (step fn caught .stackThread) (Answered fn caught .stackThread)
        (fun v => Kept fn .stackThread v ∧ Apart v) :=
      fun v e x now answered ok => ⟨keepsKept v e x now.1 answered ok,apartRan now.1 now.2 (ranCases ok)⟩
    have began : Kept fn .stackThread (.start data : World σ E V A) ∧ Apart (.start data : World σ E V A) :=
      ⟨startKept data,by intro blocked; cases blocked⟩
    exact (visitsLast (visitsOfKeeps keeps began answered) (runAppend ran went)).2
  constructor
  · have bounded := runBounded (μ := fun v => stopSteps v.owner)
      (fun v e x now ok => stopDrop now.1.1 now.2 now.1.2 (ranCases ok))
      (meetsBoth (meetsBoth (meetsOfVisits kept) (meetsOfVisits flagged)) answering) went
    have most := stepsAtMost w.owner
    rw [spentCount ofThreads 1 went,spentCount posts 3 went] at bounded
    omega
  · have last := visitsLast kept went
    rcases threadsStep last apart (visitsLast (P := fun v => v.owner.flag = true) flagged went) with stopped | more
    · exact .inl ⟨stopped,noneWaits last stopped⟩
    · exact .inr more

/- Stop takes a task that calls Invoke, and the loop, which is inside its poll, runs the call. -/
def stopCalled : List (Event Nat Unit Unit) := [.post idleTask,.control .isShutdown,.control .stop]

def stopCalls : List (Event Nat Unit Unit) := [.control .stopGetNext,.invoke .stopTask (),.control .getNext,.finish,
  .stopFinish,.control .stopGetNext,.control .getNext,.control .isShutdown,.control .join]

theorem callingEnds : ∃ w u, run (step length (fun _ => false) .stackThread) (.start 0) stopCalled = some w ∧
    run (step length (fun _ => false) .stackThread) w stopCalls = some u ∧
    stopCalls.countP ofThreads ≤ 3 * w.owner.queue.length + 6 + 3 * stopCalls.countP posts ∧
    ((StackTasks.Stopped u.owner = true ∧ ∀ c, waiting c u = false) ∨
      ∃ e, ofThreads e = true ∧ (step length (fun _ => false) .stackThread u e).isSome = true) := by
  refine ⟨_,_,rfl,rfl,stopEnds length (fun _ => false) 0 stopCalled stopCalls _ _ rfl rfl ?_ rfl⟩
  refine And.intro trivial (And.intro trivial (And.intro trivial (And.intro trivial (And.intro rfl (And.intro trivial
    (And.intro ?_ (And.intro ?_ (And.intro trivial (And.intro trivial (And.intro trivial (And.intro trivial
      trivial)))))))))))
  · rintro t ⟨⟩
    exact ⟨_,rfl⟩
  · rintro t ⟨⟩
    exact ⟨_,rfl⟩

end RtcCall.Waits
