import RtcCall.Session.OwnerThread
import RtcCall.Session.CallContext

/-! Invoke on an owner thread. A caller in the thread runs the function itself; any other
caller posts it and waits for a promise that lives in the caller's frame. -/
namespace RtcCall.Invoke
open StepRuns OwnerThread

/- What a function returns or throws, and what it makes of the thread's data. -/
abbrev Fn (σ E V : Type) := σ → Except E V × σ

/- The tasks of the queue: what was posted, and the closure that Invoke posts. -/
inductive Job (σ E A : Type) where
  | plain (fn : Fn σ E Unit)
  | invoke (call : Nat) (args : A)

/- Invoke is called by a task that the loop runs, by a task that Stop runs, or elsewhere. -/
inductive Caller where | loopTask | stopTask | other deriving DecidableEq, Repr

/- `runs` is the data before and after each run of the function and is observed only;
`result` is what the caller got. -/
structure Call (σ E V A : Type) where
  args : A
  runs : List (σ × σ)
  result : Option (Except E V)

/- `waits` is the call that the task which Stop runs has waited for last. -/
structure World (σ E V A : Type) where
  owner : Owner (Job σ E A)
  data : σ
  calls : List (Call σ E V A)
  waits : Option Nat

inductive Event (σ E A : Type) where
  | post (fn : Fn σ E Unit)
  | invoke (caller : Caller) (args : A)
  | control (c : Control)
  | finish
  | stopFinish

section
variable {σ E V A : Type}

def World.start (data : σ) : World σ E V A := ⟨.start,data,[],none⟩

def Job.call : Job σ E A → Option Nat
  | .plain _ => none
  | .invoke c _ => some c

/- The task that Stop runs waits for a promise. -/
def World.blocked (w : World σ E V A) : Bool := match w.waits with
  | some c => w.calls[c]?.any (·.result.isNone)
  | none => false

/- Somebody will still take what is queued. -/
def World.served (kind : Kind) (w : World σ E V A) : Bool :=
  w.owner.loopServes kind || (w.owner.stopper.drains && !w.blocked)

def inThisThread : Caller → Bool
  | .loopTask => true
  | .stopTask | .other => false

def World.calling (w : World σ E V A) : Caller → Bool
  | .loopTask => w.owner.loop.hand.isSome
  | .stopTask => w.owner.stopper.hand.isSome && !w.blocked
  | .other => true

/- `caught` says which exceptions the library's loop catches. -/
def outcome {X : Type} (caught : E → Bool) : Except E X → Outcome
  | .ok _ => .returned
  | .error e => if caught e then .caught else .escaped

/- `promise.set_value(fn(args...))` sets nothing when fn throws. -/
def setValue : Except E V → Option (Except E V)
  | .ok v => some (.ok v)
  | .error _ => none

variable (fn : A → Fn σ E V) (caught : E → Bool) (kind : Kind)

def World.ran (c : Nat) (args : A) (w : World σ E V A) : World σ E V A :=
  {w with
    data := (fn args w.data).2
    calls := w.calls.modify c (fun call => {call with
      runs := call.runs ++ [(w.data,(fn args w.data).2)]
      result := setValue (fn args w.data).1})}

def World.perform (w : World σ E V A) : Job σ E A → Outcome × World σ E V A
  | .plain f => (outcome caught (f w.data).1,{w with data := (f w.data).2})
  | .invoke c args => (outcome caught (fn args w.data).1,w.ran fn c args)

def World.move (m : Move (Job σ E A)) (w : World σ E V A) : Option (World σ E V A) :=
  (OwnerThread.step kind w.owner m).map (fun o => {w with owner := o})

def World.direct (args : A) (w : World σ E V A) : World σ E V A :=
  {w with
    data := (fn args w.data).2
    calls := w.calls ++ [⟨args,[(w.data,(fn args w.data).2)],some (fn args w.data).1⟩]}

def World.promise (caller : Caller) (args : A) (w : World σ E V A) : World σ E V A :=
  {w with
    calls := w.calls ++ [⟨args,[],none⟩]
    waits := if caller = .stopTask then some w.calls.length else w.waits}

def invoke (caller : Caller) (args : A) (w : World σ E V A) : Option (World σ E V A) :=
  if w.owner.aborted then none
  else if inThisThread caller then some (w.direct fn args)
  else (w.promise caller args).move kind (.post (.invoke w.calls.length args))

def step (w : World σ E V A) : Event σ E A → Option (World σ E V A)
  | .post f => w.move kind (.post (.plain f))
  | .invoke caller args => if w.calling caller then invoke fn kind caller args w else none
  | .control c => w.move kind (.control c)
  | .finish => match w.owner.loop.hand with
    | some t => (w.perform fn caught t.job).2.move kind (.finish (w.perform fn caught t.job).1)
    | none => none
  | .stopFinish => match w.owner.stopper.hand with
    | some t =>
      if w.blocked then none
      else (w.perform fn caught t.job).2.move kind (.stopFinish ((w.perform fn caught t.job).1 != .returned))
    | none => none

def World.running (c : Nat) (w : World σ E V A) : Prop := ∃ t ∈ w.owner.hands, t.job.call = some c

def World.queued (c : Nat) (w : World σ E V A) : Prop := ∃ t ∈ w.owner.queue, t.job.call = some c

/- No exception has ended the process; a caller that got a result got it from one run of
the function and as a direct call would have given it; and a caller that waits waits for a
task that runs, or for one in a queue that will still be looked at. -/
structure Agrees (w : World σ E V A) : Prop where
  live : w.owner.aborted = false
  result : ∀ call ∈ w.calls, ∀ r, call.result = some r → ∃ before after, call.runs = [(before,after)] ∧
    fn call.args before = (r,after)
  waiting : ∀ (c : Nat) (call : Call σ E V A), w.calls[c]? = some call → call.result = none →
    call.runs = [] ∧ (w.running c ∨ w.queued c ∧ w.served kind = true)

/- A call from another thread needs a thread that will take its task, and the caller is
not that thread. -/
def reaches (caller : Caller) (w : World σ E V A) : Bool := match caller with
  | .loopTask => true
  | .stopTask => w.owner.loopServes kind
  | .other => w.served kind

def Returns {X : Type} (r : Except E X) : Prop := ∃ v, r = .ok v

/- What may be thrown: by a posted task, with an exception that the loop catches, and not
while the queue holds an Invoke's task that nobody would then take. -/
def Survives (w : World σ E V A) : Job σ E A → Prop
  | .plain f => ∀ e, (f w.data).1 = .error e → caught e = true ∧
    ((∃ t ∈ w.owner.queue, t.job.call ≠ none) →
      w.owner.flag = false ∨ w.owner.stopper.drains = true ∧ w.blocked = false)
  | .invoke _ args => Returns (fn args w.data).1

def SurvivesStop (w : World σ E V A) : Job σ E A → Prop
  | .plain f => Returns (f w.data).1
  | .invoke _ args => Returns (fn args w.data).1

def Answered (w : World σ E V A) : Event σ E A → Prop
  | .post _ => True
  | .invoke caller _ => reaches kind caller w = true
  | .control .askShutdown => ∀ t ∈ w.owner.queue, t.job.call = none
  | .control .isShutdown | .control .getNext | .control .stop | .control .stopGetNext | .control .join => True
  | .finish => ∀ t, w.owner.loop.hand = some t → Survives fn caught w t.job
  | .stopFinish => ∀ t, w.owner.stopper.hand = some t → SurvivesStop fn w t.job

/- The tasks that have not finished against the calls: a waiting call has one task, and a
call with a result has had its run. -/
structure Ledger (held : List (FunctionTask (Job σ E A))) (calls : List (Call σ E V A)) : Prop where
  known : ∀ t ∈ held, ∀ c a, t.job = .invoke c a → calls[c]? = some ⟨a,[],none⟩
  once : (held.filterMap (·.job.call)).Nodup
  answered : ∀ (c : Nat) (call : Call σ E V A), calls[c]? = some call →
    (∃ r before after, call.result = some r ∧ call.runs = [(before,after)] ∧ fn call.args before = (r,after)) ∨
    (call.result = none ∧ c ∈ held.filterMap (·.job.call))

theorem callOf {j : Job σ E A} {c : Nat} (owns : j.call = some c) : ∃ a, j = .invoke c a := by
  cases j with
  | plain f => cases owns
  | invoke d a => cases Option.some.inj owns; exact ⟨a,rfl⟩

namespace Ledger
variable {fn} {held other : List (FunctionTask (Job σ E A))} {calls : List (Call σ E V A)}
  {t : FunctionTask (Job σ E A)}

theorem perm (same : held.Perm other) (l : Ledger fn held calls) : Ledger fn other calls := by
  have ids := same.filterMap (fun t => t.job.call)
  refine ⟨fun t member => l.known t (same.mem_iff.mpr member),ids.nodup_iff.mp l.once,?_⟩
  intro c call found
  exact (l.answered c call found).imp id fun waiting => ⟨waiting.1,ids.mem_iff.mp waiting.2⟩

theorem postPlain (l : Ledger fn held calls) (k : Nat) (f : Fn σ E Unit) :
    Ledger fn (held ++ [⟨k,.plain f⟩]) calls := by
  refine ⟨?_,?_,?_⟩
  · intro t member c a job
    rcases List.mem_append.mp member with old | new
    · exact l.known t old c a job
    · cases List.mem_singleton.mp new
      cases job
  · simpa [Job.call] using l.once
  · simpa [Job.call] using l.answered

/- The calls of the tasks come before the next call. -/
theorem bound (l : Ledger fn held calls) {c : Nat} (member : c ∈ held.filterMap (·.job.call)) : c < calls.length := by
  obtain ⟨t,task,owns⟩ := List.mem_filterMap.mp member
  obtain ⟨a,job⟩ := callOf owns
  exact (List.getElem?_eq_some_iff.mp (l.known t task c a job)).1

theorem older (l : Ledger fn held calls) {last : Call σ E V A} :
    ∀ t ∈ held, ∀ c a, t.job = .invoke c a → (calls ++ [last])[c]? = some ⟨a,[],none⟩ := by
  intro t member c a job
  have found := l.known t member c a job
  rw [List.getElem?_append_left (List.getElem?_eq_some_iff.mp found).1]
  exact found

theorem postInvoke (l : Ledger fn held calls) (k : Nat) (args : A) :
    Ledger fn (held ++ [⟨k,.invoke calls.length args⟩]) (calls ++ [⟨args,[],none⟩]) := by
  refine ⟨?_,?_,?_⟩
  · intro t member c a job
    rcases List.mem_append.mp member with old | new
    · exact l.older t old c a job
    · cases List.mem_singleton.mp new
      cases job
      simp
  · rw [List.filterMap_append]
    refine List.nodup_append.mpr ⟨l.once,List.pairwise_singleton _ _,?_⟩
    intro c old d new
    cases List.mem_singleton.mp new
    exact Nat.ne_of_lt (l.bound old)
  · intro c call found
    rw [List.filterMap_append]
    rcases grownCases found with old | ⟨rfl,rfl⟩
    · exact (l.answered c call old).imp id fun waiting => ⟨waiting.1,List.mem_append_left _ waiting.2⟩
    · exact .inr ⟨rfl,List.mem_append_right _ List.mem_cons_self⟩

theorem direct (l : Ledger fn held calls) (args : A) (data : σ) :
    Ledger fn held (calls ++ [⟨args,[(data,(fn args data).2)],some (fn args data).1⟩]) := by
  refine ⟨l.older,l.once,?_⟩
  intro c call found
  rcases grownCases found with old | ⟨rfl,rfl⟩
  · exact l.answered c call old
  · exact .inl ⟨_,data,_,rfl,rfl,rfl⟩

theorem endPlain (l : Ledger fn (t::held) calls) {f : Fn σ E Unit} (job : t.job = .plain f) : Ledger fn held calls := by
  have skip : (t::held).filterMap (·.job.call) = held.filterMap (·.job.call) := by
    simp [job,Job.call]
  refine ⟨fun u member => l.known u (List.mem_cons_of_mem t member),skip ▸ l.once,?_⟩
  intro c call found
  exact (l.answered c call found).imp id fun waiting => ⟨waiting.1,skip ▸ waiting.2⟩

theorem endInvoke (l : Ledger fn (t::held) calls) {c : Nat} {args : A} {data : σ} {v : V}
    (job : t.job = .invoke c args) (returns : (fn args data).1 = .ok v) :
    Ledger fn held (calls.modify c (fun call => {call with
      runs := call.runs ++ [(data,(fn args data).2)]
      result := setValue (fn args data).1})) := by
  have first : (t::held).filterMap (·.job.call) = c::held.filterMap (·.job.call) := by
    simp [job,Job.call]
  obtain ⟨gone,once⟩ := List.nodup_cons.mp (first ▸ l.once)
  have own := l.known t List.mem_cons_self c args job
  refine ⟨?_,once,?_⟩
  · intro u member d a job
    have apart : c ≠ d := by
      rintro rfl
      exact gone (List.mem_filterMap.mpr ⟨u,member,by simp [job,Job.call]⟩)
    rw [List.getElem?_modify_ne _ _ apart]
    exact l.known u (List.mem_cons_of_mem t member) d a job
  · intro d call found
    by_cases same : c = d
    · subst same
      rw [List.getElem?_modify_eq,own] at found
      cases Option.some.inj found
      exact .inl ⟨.ok v,data,(fn args data).2,by simp [setValue,returns],rfl,Prod.ext returns rfl⟩
    · rw [List.getElem?_modify_ne _ _ same] at found
      refine (l.answered d call found).imp id fun waiting => ⟨waiting.1,?_⟩
      exact (List.mem_cons.mp (first ▸ waiting.2)).resolve_left (Ne.symm same)

end Ledger

structure Inv (w : World σ E V A) : Prop where
  live : w.owner.aborted = false
  user : kind = .dumThread → w.owner.stopper = .idle
  ledger : Ledger fn w.owner.held w.calls
  watched : (∃ t ∈ w.owner.queue, t.job.call ≠ none) → w.served kind = true
  asleep : ∀ c, w.waits = some c → c < w.calls.length
  free : w.owner.stopper.hand = none → w.blocked = false

variable {fn caught kind} {w u : World σ E V A}

theorem agreesOfInv (inv : Inv fn kind w) : Agrees fn kind w := by
  refine ⟨inv.live,?_,?_⟩
  · intro call member r got
    obtain ⟨c,found⟩ := List.mem_iff_getElem?.mp member
    rcases inv.ledger.answered c call found with ⟨s,before,after,result,runs,direct⟩ | ⟨waits,-⟩
    · rw [result] at got
      cases Option.some.inj got
      exact ⟨before,after,runs,direct⟩
    · rw [waits] at got
      cases got
  · intro c call found waits
    rcases inv.ledger.answered c call found with ⟨s,before,after,result,-⟩ | ⟨-,member⟩
    · rw [result] at waits
      cases waits
    · obtain ⟨t,task,owns⟩ := List.mem_filterMap.mp member
      obtain ⟨a,job⟩ := callOf owns
      have own := inv.ledger.known t task c a job
      rw [found] at own
      cases Option.some.inj own
      refine ⟨rfl,?_⟩
      rcases List.mem_append.mp task with hand | queued
      · exact .inl ⟨t,hand,owns⟩
      · exact .inr ⟨⟨t,queued,owns⟩,inv.watched ⟨t,queued,by simp [owns]⟩⟩

theorem controlInv {c : Control} {o : Owner (Job σ E A)} (inv : Inv fn kind w)
    (answered : Answered fn caught kind w (.control c)) (ok : Controlled kind w.owner c o) :
    Inv fn kind {w with owner := o} := by
  refine ⟨?_,?_,?_,?_,inv.asleep,fun free => inv.free (stopperControl ok free)⟩
  · rw [abortedControl ok]
    exact inv.live
  · rintro rfl
    exact userControl ok (inv.user rfl)
  · exact inv.ledger.perm (heldControl ok)
  · rintro ⟨t,queued,owns⟩
    have before := queueControl ok queued
    have unasked : c ≠ .askShutdown := by
      rintro rfl
      exact owns (answered t before)
    have serves := inv.watched ⟨t,before,owns⟩
    rcases servesControl ok unasked inv.free serves with empty | still
    · simp [empty] at queued
    · exact still

theorem moveCases {m : Move (Job σ E A)} (ok : w.move kind m = some u) :
    ∃ o, w.owner.aborted = false ∧ Step kind w.owner m o ∧ u = {w with owner := o} := by
  obtain ⟨o,next,rfl⟩ := Option.map_eq_some_iff.mp ok
  exact ⟨o,(stepCases next).1,(stepCases next).2,rfl⟩

theorem postPlainInv (inv : Inv fn kind w) (f : Fn σ E Unit) :
    Inv fn kind {w with owner := w.owner.postImpl (.plain f)} := by
  refine ⟨inv.live,inv.user,?_,?_,inv.asleep,inv.free⟩
  · rw [heldPost]
    exact inv.ledger.postPlain _ f
  · rintro ⟨t,queued,owns⟩
    rcases List.mem_append.mp queued with old | new
    · exact inv.watched ⟨t,old,owns⟩
    · cases List.mem_singleton.mp new
      exact absurd rfl owns

/- A promise that a task of Stop waits for blocks Stop; any other leaves it as it is. -/
theorem blockedPromise (inv : Inv fn kind w) (caller : Caller) (args : A) :
    (w.promise caller args).blocked = (decide (caller = .stopTask) || w.blocked) := by
  by_cases own : caller = .stopTask
  · simp [World.promise,World.blocked,own]
  · cases waits : w.waits with
    | none => simp [World.promise,World.blocked,own,waits]
    | some c =>
      simp only [World.promise,World.blocked,own,waits,if_false]
      rw [List.getElem?_append_left (inv.asleep c waits)]
      simp

theorem promiseInv (inv : Inv fn kind w) {caller : Caller} {args : A} (calling : w.calling caller = true)
    (reached : reaches kind caller w = true) (elsewhere : inThisThread caller = false) :
    Inv fn kind {w.promise caller args with owner := w.owner.postImpl (.invoke w.calls.length args)} := by
  refine ⟨inv.live,inv.user,?_,?_,?_,?_⟩
  · rw [heldPost]
    exact inv.ledger.postInvoke _ args
  · intro _
    cases caller with
    | loopTask => cases elsewhere
    | stopTask => exact Bool.or_eq_true_iff.mpr (.inl reached)
    | other =>
      change (w.owner.loopServes kind || (w.owner.stopper.drains && !(w.promise .other args).blocked)) = true
      rw [blockedPromise inv]
      exact reached
  · intro c waits
    simp only [World.promise] at waits ⊢
    split at waits
    · cases Option.some.inj waits
      simp
    · have old := inv.asleep c waits
      simp
      omega
  · intro free
    cases caller with
    | loopTask => cases elsewhere
    | stopTask => simp [World.calling,show w.owner.stopper.hand = none from free] at calling
    | other => exact (blockedPromise inv .other args).trans (by simpa using inv.free free)

theorem directInv (inv : Inv fn kind w) (args : A) : Inv fn kind (w.direct fn args) := by
  have same : (w.direct fn args).blocked = w.blocked := by
    cases waits : w.waits with
    | none => simp [World.direct,World.blocked,waits]
    | some c =>
      simp only [World.direct,World.blocked,waits]
      rw [List.getElem?_append_left (inv.asleep c waits)]
  refine ⟨inv.live,inv.user,inv.ledger.direct args w.data,?_,?_,?_⟩
  · intro queued
    change (w.owner.loopServes kind || (w.owner.stopper.drains && !(w.direct fn args).blocked)) = true
    rw [same]
    exact inv.watched queued
  · intro c waits
    have old := inv.asleep c waits
    simp [World.direct]
    omega
  · exact fun free => same.trans (inv.free free)

/- The run of an Invoke's function answers its caller, so it can only unblock Stop. -/
theorem ranUnblocks {c : Nat} {args : A} (own : w.calls[c]? = some ⟨args,[],none⟩)
    (blocked : (w.ran fn c args).blocked = true) : w.blocked = true := by
  cases waits : w.waits with
  | none => simp [World.ran,World.blocked,waits] at blocked
  | some d =>
    simp only [World.ran,World.blocked,waits] at blocked ⊢
    by_cases same : c = d
    · subst same
      simp [own]
    · rwa [List.getElem?_modify_ne _ _ same] at blocked

theorem returnedOk {X : Type} {r : Except E X} (back : outcome caught r = .returned) : Returns r := by
  cases r with
  | ok v => exact ⟨v,rfl⟩
  | error e =>
    simp only [outcome] at back
    split at back <;> cases back

theorem outcomeOk {X : Type} {r : Except E X} (back : Returns r) : outcome caught r = .returned := by
  obtain ⟨v,rfl⟩ := back
  rfl

/- After a task that the loop ran to its end: a task that returned, or one that threw what
the loop catches. -/
theorem finishedInv {t : FunctionTask (Job σ E A)} {o : Outcome} {v : World σ E V A} (inv : Inv fn kind w)
    (place : w.owner.loop = .running t) (live : o ≠ .escaped)
    (ledger : Ledger fn (w.owner.finish kind t o).held v.calls) (waits : v.waits = w.waits)
    (calls : v.calls.length = w.calls.length) (unblocks : v.blocked = true → w.blocked = true)
    (thrown : o = .caught → (∃ t ∈ w.owner.queue, t.job.call ≠ none) →
      w.owner.flag = false ∨ w.owner.stopper.drains = true ∧ v.blocked = false) :
    Inv fn kind {v with owner := w.owner.finish kind t o} := by
  have stopper : (w.owner.finish kind t o).stopper = w.owner.stopper := by cases o <;> rfl
  have queue : (w.owner.finish kind t o).queue = w.owner.queue := by cases o <;> rfl
  refine ⟨?_,?_,ledger,?_,?_,?_⟩
  · cases o with
    | returned => exact inv.live
    | caught => exact inv.live
    | escaped => exact absurd rfl live
  · intro user
    exact stopper.trans (inv.user user)
  · rintro ⟨x,queued,owns⟩
    have waiting : ∃ t ∈ w.owner.queue, t.job.call ≠ none := ⟨x,queue ▸ queued,owns⟩
    have before := inv.watched waiting
    change ((w.owner.finish kind t o).loopServes kind ||
      ((w.owner.finish kind t o).stopper.drains && !v.blocked)) = true
    rw [stopper]
    cases o with
    | returned =>
      cases kind with
      | stackThread => rfl
      | dumThread =>
        have unasked : w.owner.flag = false := by
          simpa [World.served,Owner.loopServes,Loop.serves,Stopper.drains,place,inv.user rfl] using before
        simp [Owner.loopServes,Loop.serves,Owner.finish,Owner.end,Kind.next,unasked]
    | caught =>
      rcases thrown rfl waiting with unasked | ⟨drains,free⟩
      · simp [Owner.loopServes,Loop.serves,Owner.finish,Owner.end,unasked]
      · simp [drains,free]
    | escaped => exact absurd rfl live
  · intro c last
    change c < v.calls.length
    rw [calls]
    exact inv.asleep c (waits ▸ last)
  · intro free
    have before := inv.free (stopper ▸ free)
    change v.blocked = false
    cases now : v.blocked with
    | false => rfl
    | true => rw [unblocks now] at before; cases before

theorem finishInv {t : FunctionTask (Job σ E A)} (inv : Inv fn kind w) (place : w.owner.loop = .running t)
    (survives : Survives fn caught w t.job) :
    Inv fn kind {(w.perform fn caught t.job).2 with
      owner := w.owner.finish kind t (w.perform fn caught t.job).1} := by
  cases job : t.job with
  | plain f =>
    rw [job] at survives
    have live : outcome caught (f w.data).1 ≠ .escaped := by
      cases thrown : (f w.data).1 with
      | ok v => intro h; cases h
      | error e => simp [outcome,(survives e thrown).1]
    have alive : (w.owner.finish kind t (outcome caught (f w.data).1)).aborted = false := by
      cases o : outcome caught (f w.data).1 with
      | returned => exact inv.live
      | caught => exact inv.live
      | escaped => exact absurd o live
    refine finishedInv inv place live ?_ rfl rfl id ?_
    · have held := heldFinish place alive
      exact Ledger.endPlain (held ▸ inv.ledger) job
    · intro stays waiting
      have stays : outcome caught (f w.data).1 = .caught := stays
      cases thrown : (f w.data).1 with
      | ok v => rw [thrown] at stays; cases stays
      | error e => exact (survives e thrown).2 waiting
  | invoke c args =>
    rw [job] at survives
    obtain ⟨v,returns⟩ := survives
    have back : outcome caught (fn args w.data).1 = .returned := outcomeOk ⟨v,returns⟩
    have member : t ∈ w.owner.held := by simp [Owner.held,Owner.hands,Loop.hand,place]
    have own := inv.ledger.known t member c args job
    simp only [World.perform,back]
    refine finishedInv inv place (by intro h; cases h) ?_ rfl (by simp [World.ran]) (ranUnblocks own)
      (by intro h; cases h)
    have held : w.owner.held = t::(w.owner.finish kind t .returned).held := heldFinish place inv.live
    exact Ledger.endInvoke (held ▸ inv.ledger) job returns

theorem stopFinishInv {t : FunctionTask (Job σ E A)} (inv : Inv fn kind w) (place : w.owner.stopper = .running t)
    (free : w.blocked = false) (survives : SurvivesStop fn w t.job) :
    Inv fn kind {(w.perform fn caught t.job).2 with
      owner := w.owner.stopFinish t ((w.perform fn caught t.job).1 != .returned)} := by
  have held : w.owner.held.Perm (t::(w.owner.stopFinish t false).held) := heldStopFinish place inv.live
  have ledger := inv.ledger.perm held
  have busy : kind = .dumThread → (w.owner.stopFinish t false).stopper = .idle := by
    intro user
    have idle := inv.user user
    simp [place] at idle
  cases job : t.job with
  | plain f =>
    rw [job] at survives
    have back : outcome caught (f w.data).1 = .returned := outcomeOk survives
    simp only [World.perform,back]
    refine ⟨inv.live,busy,ledger.endPlain job,fun _ => ?_,inv.asleep,fun _ => free⟩
    refine Bool.or_eq_true_iff.mpr (.inr ?_)
    change (!w.blocked) = true
    rw [free]
    rfl
  | invoke c args =>
    rw [job] at survives
    obtain ⟨v,returns⟩ := survives
    have back : outcome caught (fn args w.data).1 = .returned := outcomeOk ⟨v,returns⟩
    have member : t ∈ w.owner.held := by simp [Owner.held,Owner.hands,Stopper.hand,place]
    have own := inv.ledger.known t member c args job
    have still : (w.ran fn c args).blocked = false := by
      cases now : (w.ran fn c args).blocked with
      | false => rfl
      | true => rw [ranUnblocks own now] at free; cases free
    simp only [World.perform,back]
    refine ⟨inv.live,busy,ledger.endInvoke job returns,fun _ => ?_,?_,fun _ => still⟩
    · refine Bool.or_eq_true_iff.mpr (.inr ?_)
      change (!(w.ran fn c args).blocked) = true
      rw [still]
      rfl
    · intro d last
      simpa [World.ran] using inv.asleep d last

/- Everything a step can do. -/
inductive Ran (fn : A → Fn σ E V) (caught : E → Bool) (kind : Kind) (w : World σ E V A) :
    Event σ E A → World σ E V A → Prop where
  | post (f : Fn σ E Unit) : Ran fn caught kind w (.post f) {w with owner := w.owner.postImpl (.plain f)}
  | direct (args : A) : Ran fn caught kind w (.invoke .loopTask args) (w.direct fn args)
  | promise {caller} (args : A) (calling : w.calling caller = true) (elsewhere : inThisThread caller = false) :
      Ran fn caught kind w (.invoke caller args)
        {w.promise caller args with owner := w.owner.postImpl (.invoke w.calls.length args)}
  | control {c o} (ok : Controlled kind w.owner c o) : Ran fn caught kind w (.control c) {w with owner := o}
  | finish {t} (place : w.owner.loop = .running t) : Ran fn caught kind w .finish
      {(w.perform fn caught t.job).2 with owner := w.owner.finish kind t (w.perform fn caught t.job).1}
  | stopFinish {t} (place : w.owner.stopper = .running t) (free : w.blocked = false) :
      Ran fn caught kind w .stopFinish {(w.perform fn caught t.job).2 with
        owner := w.owner.stopFinish t ((w.perform fn caught t.job).1 != .returned)}

theorem performOwner (j : Job σ E A) : (w.perform fn caught j).2.owner = w.owner := by
  cases j <;> rfl

theorem ranCases {e : Event σ E A} (ok : step fn caught kind w e = some u) : Ran fn caught kind w e u := by
  cases e with
  | post f =>
    obtain ⟨o,-,moved,rfl⟩ := moveCases ok
    cases moved
    exact .post f
  | invoke caller args =>
    simp only [step,invoke] at ok
    split at ok <;> try contradiction
    rename_i calling
    split at ok <;> try contradiction
    split at ok
    · cases Option.some.inj ok
      rename_i here
      cases caller with
      | loopTask => exact .direct args
      | stopTask => cases here
      | other => cases here
    · rename_i elsewhere
      obtain ⟨o,-,moved,rfl⟩ := moveCases ok
      cases moved
      exact .promise args calling (Bool.eq_false_iff.mpr elsewhere)
  | control c =>
    obtain ⟨o,-,moved,rfl⟩ := moveCases ok
    cases moved with
    | control ok => exact .control ok
  | finish =>
    simp only [step] at ok
    split at ok <;> try contradiction
    rename_i t hand
    obtain ⟨o,-,moved,rfl⟩ := moveCases ok
    rw [performOwner] at moved
    cases moved with
    | finish _ place =>
      rw [place] at hand
      cases Option.some.inj hand
      exact .finish place
  | stopFinish =>
    simp only [step] at ok
    split at ok <;> try contradiction
    rename_i t hand
    split at ok <;> try contradiction
    rename_i free
    obtain ⟨o,-,moved,rfl⟩ := moveCases ok
    rw [performOwner] at moved
    cases moved with
    | stopFinish _ place =>
      rw [place] at hand
      cases Option.some.inj hand
      exact .stopFinish place (Bool.eq_false_iff.mpr free)

theorem ranInv {e : Event σ E A} (inv : Inv fn kind w) (answered : Answered fn caught kind w e)
    (ran : Ran fn caught kind w e u) : Inv fn kind u := by
  cases ran with
  | post f => exact postPlainInv inv f
  | direct args => exact directInv inv args
  | promise args calling elsewhere => exact promiseInv inv calling answered elsewhere
  | control ok => exact controlInv inv answered ok
  | finish place => exact finishInv inv place (answered _ (by rw [place]; rfl))
  | stopFinish place free => exact stopFinishInv inv place free (answered _ (by rw [place]; rfl))

/- A call whose task is in the queue has none in a hand. -/
theorem queuedOnce (inv : Inv fn kind w) {t x : FunctionTask (Job σ E A)} {c : Nat} (queued : t ∈ w.owner.queue)
    (owns : t.job.call = some c) (hand : x ∈ w.owner.hands) : x.job.call ≠ some c := by
  intro also
  have once := inv.ledger.once
  rw [Owner.held,List.filterMap_append] at once
  have apart := (List.nodup_append.mp once).2.2
  exact apart c (List.mem_filterMap.mpr ⟨x,hand,also⟩) c (List.mem_filterMap.mpr ⟨t,queued,owns⟩) rfl

/- A queued call that nobody will take is left waiting. -/
theorem queuedStranded {t : FunctionTask (Job σ E A)} (inv : Inv fn kind w) (queued : t ∈ w.owner.queue)
    (owns : t.job.call ≠ none) (calls : u.calls = w.calls) (hands : ∀ x ∈ u.owner.hands, x ∈ w.owner.hands)
    (unserved : u.served kind = false) : ¬ Agrees fn kind u := by
  intro agrees
  obtain ⟨c,own⟩ := Option.ne_none_iff_exists'.mp owns
  obtain ⟨a,job⟩ := callOf own
  have found := inv.ledger.known t (List.mem_append_right _ queued) c a job
  rcases (agrees.waiting c _ (calls ▸ found) rfl).2 with ⟨x,hand,also⟩ | ⟨-,served⟩
  · exact queuedOnce inv queued own (hands x hand) also
  · rw [unserved] at served
    cases served

theorem promiseStranded (inv : Inv fn kind w) {caller : Caller} {args : A} (elsewhere : inThisThread caller = false)
    (lost : reaches kind caller w = false) : ¬ Agrees fn kind
      {w.promise caller args with owner := w.owner.postImpl (.invoke w.calls.length args)} := by
  intro agrees
  have waits := agrees.waiting w.calls.length ⟨args,[],none⟩ (by simp [World.promise]) rfl
  rcases waits.2 with ⟨t,hand,owns⟩ | ⟨-,served⟩
  · have old : w.calls.length ∈ w.owner.held.filterMap (·.job.call) :=
      List.mem_filterMap.mpr ⟨t,List.mem_append_left _ hand,owns⟩
    exact Nat.lt_irrefl _ (inv.ledger.bound old)
  · change (w.owner.loopServes kind || (w.owner.stopper.drains && !(w.promise caller args).blocked)) = true at served
    rw [blockedPromise inv] at served
    cases caller with
    | loopTask => cases elsewhere
    | stopTask =>
      have loop : w.owner.loopServes kind = false := lost
      simp [loop] at served
    | other =>
      have nobody : (w.owner.loopServes kind || (w.owner.stopper.drains && !w.blocked)) = false := lost
      exact absurd served (by simpa using nobody)

theorem thrown {X : Type} {r : Except E X} (bare : ¬ Returns r) : ∃ e, r = .error e := by
  cases r with
  | ok v => exact absurd ⟨v,rfl⟩ bare
  | error e => exact ⟨e,rfl⟩

theorem finishLost {t : FunctionTask (Job σ E A)} (inv : Inv fn kind w) (place : w.owner.loop = .running t)
    (bare : ¬ Survives fn caught w t.job) : ¬ Agrees fn kind {(w.perform fn caught t.job).2 with
      owner := w.owner.finish kind t (w.perform fn caught t.job).1} := by
  cases job : t.job with
  | plain f =>
    rw [job] at bare
    obtain ⟨e,bare⟩ := not_forall.mp bare
    obtain ⟨raised,bare⟩ := Classical.not_imp.mp bare
    by_cases stays : caught e = true
    · obtain ⟨⟨x,queued,owns⟩,left⟩ := Classical.not_imp.mp fun survives => bare ⟨stays,survives⟩
      obtain ⟨flagged,gone⟩ := not_or.mp left
      refine queuedStranded inv queued owns rfl ?_ ?_
      · intro y hand
        simp only [World.perform,outcome,raised,stays] at hand
        exact List.mem_append_right _ hand
      · simp only [World.perform,outcome,raised,stays]
        change (!w.owner.flag || (w.owner.stopper.drains && !w.blocked)) = false
        simpa using ⟨by simpa using flagged,by simpa using gone⟩
    · intro agrees
      have live := agrees.live
      simp [World.perform,outcome,raised,stays,Owner.finish] at live
  | invoke c args =>
    rw [job] at bare
    obtain ⟨e,raised⟩ := thrown bare
    intro agrees
    by_cases stays : caught e = true
    · have member : t ∈ w.owner.held := by simp [Owner.held,Owner.hands,Loop.hand,place]
      have own := inv.ledger.known t member c args job
      have waits := agrees.waiting c ⟨args,[(w.data,(fn args w.data).2)],none⟩ (by
        simp [World.perform,World.ran,own,raised,setValue]) rfl
      cases waits.1
    · have live := agrees.live
      simp [World.perform,outcome,raised,stays,Owner.finish] at live

theorem stopFinishLost {t : FunctionTask (Job σ E A)} (bare : ¬ SurvivesStop fn w t.job) :
    ¬ Agrees fn kind {(w.perform fn caught t.job).2 with
      owner := w.owner.stopFinish t ((w.perform fn caught t.job).1 != .returned)} := by
  intro agrees
  have threw : (w.perform fn caught t.job).1 ≠ .returned := by
    intro back
    cases job : t.job with
    | plain f =>
      rw [job] at bare back
      exact bare (returnedOk back)
    | invoke c args =>
      rw [job] at bare back
      exact bare (returnedOk back)
  have live := agrees.live
  simp [Owner.stopFinish,threw] at live

theorem ranLost {e : Event σ E A} (inv : Inv fn kind w) (bare : ¬ Answered fn caught kind w e)
    (ran : Ran fn caught kind w e u) : ¬ Agrees fn kind u := by
  cases ran with
  | post f => exact absurd trivial bare
  | direct args => exact absurd rfl bare
  | promise args calling elsewhere => exact promiseStranded inv elsewhere (Bool.eq_false_iff.mpr bare)
  | control ok =>
    cases ok with
    | askShutdown user place =>
      obtain ⟨t,bare⟩ := not_forall.mp bare
      obtain ⟨queued,owns⟩ := Classical.not_imp.mp bare
      refine queuedStranded inv queued owns rfl (fun _ hand => hand) ?_
      subst user
      have idle := inv.user rfl
      simp [World.served,Owner.loopServes,Loop.serves,Stopper.drains,place,idle]
    | leave | poll | null | take | stop | stopNull | stopTake | join => exact absurd trivial bare
  | @finish t place =>
    refine finishLost inv place fun survives => bare ?_
    intro x hand
    rw [place] at hand
    cases Option.some.inj hand
    exact survives
  | @stopFinish t place free =>
    refine stopFinishLost fun survives => bare ?_
    intro x hand
    rw [place] at hand
    cases Option.some.inj hand
    exact survives

theorem startInv (data : σ) : Inv fn kind (.start data : World σ E V A) := by
  refine ⟨rfl,fun _ => rfl,⟨?_,List.nodup_nil,?_⟩,?_,?_,fun _ => rfl⟩
  · intro t member
    cases member
  · intro c call found
    simp [World.start] at found
  · rintro ⟨t,queued,-⟩
    cases queued
  · intro c waits
    cases waits

theorem invokeAgrees (fn : A → Fn σ E V) (caught : E → Bool) (kind : Kind) (data : σ) (events : List (Event σ E A)) :
    Visits (step fn caught kind) (Agrees fn kind) (.start data) events ↔
      Meets (step fn caught kind) (Answered fn caught kind) (.start data) events := by
  have keep : Keeps (step fn caught kind) (fun w e => True ∧ Answered fn caught kind w e) (Inv fn kind) :=
    fun w e u inv answered ok => ranInv inv answered.2 (ranCases ok)
  exact visitsIffMeets keep (fun _ => agreesOfInv) (fun w e u inv _ bare ok => ranLost inv bare (ranCases ok))
    (startInv data) (meetsOfEvents (fun _ _ _ => trivial) _)

end

/- GetLocalSdp on the DUM thread of the user: what it writes to `out`, if it returns true. -/
def getLocalSdp {E : Type} (_ : Unit) : Fn CallContext.World E (Option Bytes) :=
  fun w => (.ok (CallContext.getLocalSdp w),w)

/- CreateShared on the stack thread: an object is named by its place among those created.
The constructor may throw; the deleter that it returns posts a task. -/
def createShared {E T Args : Type} (construct : Args → Except E T) (args : Args) : Fn (List T) E Nat :=
  fun objects => match construct args with
    | .ok object => (.ok objects.length,objects ++ [object])
    | .error e => (.error e,objects)

/- For every function, in every run of the target's loop, its Stop and any callers: the
two paths of Invoke agree in every state exactly when each call reaches a thread that will
take its task, no function of a call throws, and the thread is not asked to shut down
before the queued calls. GetLocalSdp and CreateShared are such functions. -/
theorem invokeAgreesExactly {E : Type} (caught : E → Bool) :
    (∀ (σ V A : Type) (fn : A → Fn σ E V) (kind : Kind) (data : σ) (events : List (Event σ E A)),
      Visits (step fn caught kind) (Agrees fn kind) (.start data) events ↔
        Meets (step fn caught kind) (Answered fn caught kind) (.start data) events) ∧
    (∀ (context : CallContext.World) (events : List (Event CallContext.World E Unit)),
      Visits (step getLocalSdp caught .dumThread) (Agrees getLocalSdp .dumThread) (.start context) events ↔
        Meets (step getLocalSdp caught .dumThread) (Answered getLocalSdp caught .dumThread) (.start context) events) ∧
    (∀ (T Args : Type) (construct : Args → Except E T) (objects : List T) (events : List (Event (List T) E Args)),
      Visits (step (createShared construct) caught .stackThread) (Agrees (createShared construct) .stackThread)
          (.start objects) events ↔
        Meets (step (createShared construct) caught .stackThread)
          (Answered (createShared construct) caught .stackThread) (.start objects) events) :=
  ⟨fun _ _ _ fn kind data events => invokeAgrees fn caught kind data events,
    fun context events => invokeAgrees getLocalSdp caught .dumThread context events,
    fun _ _ construct objects events => invokeAgrees (createShared construct) caught .stackThread objects events⟩

def failing (_ : Unit) : Except Unit Nat := .error ()

/- The call of another thread runs first and its constructor throws. -/
def throwingCall : List (Event (List Nat) Unit Unit) :=
  [.invoke .other (),.control .isShutdown,.control .getNext,.finish]

def idleTask {σ : Type} : Fn σ Unit Unit := fun d => (.ok (),d)

/- The DUM asks its thread to shut down inside a task; the call comes before or after. -/
def callBefore : List (Event CallContext.World Unit Unit) :=
  [.post idleTask,.control .isShutdown,.control .getNext,.invoke .other (),.control .askShutdown,.finish,
    .control .isShutdown]

def callAfter : List (Event CallContext.World Unit Unit) :=
  [.post idleTask,.control .isShutdown,.control .getNext,.control .askShutdown,.finish,.control .isShutdown,
    .invoke .other ()]

theorem strandedAlone {w : World CallContext.World Unit (Option Bytes) Unit} (waits : w.calls[0]? = some ⟨(),[],none⟩)
    (hands : w.owner.hands = []) (unserved : w.served .dumThread = false) : ¬ Agrees getLocalSdp .dumThread w := by
  intro agrees
  rcases (agrees.waiting 0 _ waits rfl).2 with ⟨t,hand,-⟩ | ⟨-,served⟩
  · rw [hands] at hand
    cases hand
  · rw [unserved] at served
    cases served

theorem invokeStrands :
    (∃ w, run (step (createShared failing) (fun _ => false) .stackThread) (.start []) throwingCall = some w ∧
      w.owner.aborted = true ∧ ¬ Agrees (createShared failing) .stackThread w) ∧
    (∃ w, run (step (createShared failing) (fun _ => true) .stackThread) (.start []) throwingCall = some w ∧
      w.owner.held = [] ∧ w.calls = [⟨(),[([],[])],none⟩] ∧ ¬ Agrees (createShared failing) .stackThread w) ∧
    ∀ events ∈ [callBefore,callAfter], ∃ w,
      run (step getLocalSdp (fun _ => false) .dumThread) (.start (.initial .caller)) events = some w ∧
      w.owner.loop = .exited ∧ w.calls = [⟨(),[],none⟩] ∧ ¬ Agrees getLocalSdp .dumThread w := by
  refine ⟨⟨_,rfl,rfl,?_⟩,⟨_,rfl,rfl,rfl,?_⟩,?_⟩
  · intro agrees
    cases agrees.live
  · intro agrees
    cases (agrees.waiting 0 ⟨(),[([],[])],none⟩ rfl rfl).1
  · intro events member
    rcases List.mem_cons.mp member with rfl | rest
    · exact ⟨_,rfl,rfl,rfl,strandedAlone rfl rfl rfl⟩
    · cases List.mem_singleton.mp rest
      exact ⟨_,rfl,rfl,rfl,strandedAlone rfl rfl rfl⟩

end RtcCall.Invoke
