import RtcCall.Session.LoginIntent
import RtcCall.Session.OneOperation
import Mathlib.Algebra.Order.BigOperators.Group.List
import Mathlib.Algebra.Order.Ring.Nat

/-! What becomes of a registration when its user falls silent. Every queued command,
pending request and running callback has a weight, which each step of the DUM and of
its thread lowers and only a contact to rewrite adds to. When nothing more can step,
the controller and the DUM agree on what the last Login or Logout asked for. -/
namespace RtcCall.Settles
open RportUpdate UserState UserContext RegistrationPhase StepRuns
open LoginIntent (Quiescent LoginHeard Intent keepsIntent initialIntent)

/- What the DUM and its thread do of themselves: no call of the user, no refresh and
no retry, which come from timers. -/
def settling : Event → Bool
  | .execute | .advance | .success _ _ | .removed _ | .failure _ => true
  | .login _ | .logout _ | .refreshed _ _ | .refreshFailed _ | .requestRetry _ => false

/- The running callback finds a contact to rewrite. -/
def rewrites (env : Env) (w : World) (e : Event) : Bool := match e,w.frame with
  | .advance,.successRewrite r goesOn => goesOn && rewriteApplies env r
  | _,_ => false

/-! Weights. `op` is the controller's regist_op_, which decides what an outcome sets
off: a success sends an un-registration when it is false, a removal a registration
when it is true. No settling step changes it. -/

def addWeight (op : Bool) : Nat := if op then 5 else 9
def endWeight (op : Bool) : Nat := if op then 9 else 4
def removedWeight (op : Bool) : Nat := if op then 6 else 1

def requestWeight (op : Bool) : Request → Nat
  | .addReg | .addBinding => addWeight op
  | .endReg => endWeight op
  | .removeAll => 1 + addWeight op + removedWeight op

def commandWeight (op : Bool) : DumCommand → Nat
  | .addReg => 1 + requestWeight op .addReg
  | .endReg _ => 1 + requestWeight op .endReg
  | .updateReg _ _ => 1 + requestWeight op .removeAll

def frameWeight (op : Bool) : Frame → Nat
  | .idle => 0
  | .successNotify _ | .failureControl _ => 1
  | .successRewrite _ _ | .failureNotify _ => 2
  | .failureAssign _ _ => 3
  | .successControl _ _ => if op then 3 else 7
  | .successAssign _ _ _ => if op then 4 else 8
  | .removedControl _ => removedWeight op

def dumWeight (op : Bool) (d : Dum) : Nat := (d.inFlight.map (fun x => requestWeight op x.request)).sum

def weight (op : Bool) (w : World) : Nat :=
  (w.queue.map (commandWeight op)).sum + dumWeight op w.dum + frameWeight op w.frame

/- What a rewriting adds: the closure that will ask for the update. -/
def cost (env : Env) (w : World) (e : Event) : Nat := if rewrites env w e then 13 else 0

section
variable (op : Bool) {w : World} {d : Dum}

theorem askWeight (h : Handle) (r : Request) : dumWeight op (d.ask h r) = dumWeight op d + requestWeight op r := by
  simp [dumWeight,Dum.ask]

theorem executeWeight (c : DumCommand) : dumWeight op (c.execute d)+1 ≤ dumWeight op d + commandWeight op c := by
  cases c with
  | addReg =>
    have made : dumWeight op d.makeRegistration = dumWeight op d + requestWeight op .addReg := by
      simp [dumWeight,Dum.makeRegistration]
    simp only [DumCommand.execute,made,commandWeight]
    omega
  | endReg h =>
    cases h with
    | none => simp only [DumCommand.execute,commandWeight]; omega
    | some h =>
      simp only [DumCommand.execute,commandWeight]
      split
      · rw [askWeight]; omega
      · omega
  | updateReg h contacts =>
    cases h with
    | none => simp only [DumCommand.execute,commandWeight]; omega
    | some h =>
      simp only [DumCommand.execute,commandWeight]
      split
      · change dumWeight op (d.ask h .removeAll)+1 ≤ _
        rw [askWeight]; omega
      · omega

theorem resolveWeight {x : InFlight} (there : x ∈ d.inFlight) :
    dumWeight op (d.resolve x) + requestWeight op x.request = dumWeight op d := by
  have same := ((List.perm_cons_erase there).map (fun x => requestWeight op x.request)).sum_eq
  rw [List.map_cons,List.sum_cons] at same
  simp only [dumWeight,Dum.resolve]
  omega

/- With the registration goes all that was in flight of it. -/
theorem dropWeight {x : InFlight} (there : x ∈ d.inFlight) :
    dumWeight op (d.drop x.handle) + requestWeight op x.request ≤ dumWeight op d := by
  have out : (d.drop x.handle).inFlight.Sublist (d.inFlight.erase x) := by
    have gone : (d.inFlight.filter (·.handle != x.handle)).erase x = d.inFlight.filter (·.handle != x.handle) :=
      List.erase_of_not_mem (by simp)
    change (d.inFlight.filter (·.handle != x.handle)).Sublist _
    rw [← gone]
    exact List.filter_sublist.erase x
  have lighter : dumWeight op (d.drop x.handle) ≤ dumWeight op (d.resolve x) :=
    (out.map _).sum_le_sum (fun _ _ => Nat.zero_le _)
  have rest := resolveWeight op there
  omega

/-! The callbacks, from the statement at which they stand. The weights of a statement
that sends allow for what it sends. -/

theorem controlDrops {o : RegOp} (r : Response) (kept : w.controller.registOp = op) :
    weight op {(controlSuccess w).2 with frame := .successRewrite r (controlSuccess w).1}+1 ≤
      weight op {w with frame := .successControl o r} := by
  have sent := executeWeight op (d := w.dum) (.endReg w.handle)
  rw [controlSuccessFrom]
  split
  · split
    · rename_i on
      simp only [weight,frameWeight,← kept,on,if_true]
      omega
    · rename_i off
      have leaves : op = false := by rw [← kept]; exact Bool.eq_false_iff.mpr off
      subst leaves
      simp only [weight,frameWeight,sendEndRegMsg,dispatch,World.decide,commandWeight,requestWeight,endWeight,
        if_neg Bool.false_ne_true] at sent ⊢
      omega
  · split <;> cases op <;> simp only [weight,frameWeight,if_true,if_neg Bool.false_ne_true] <;> omega

theorem removedDrops (ended : Bool) (kept : w.controller.registOp = op) (idle : w.frame = .idle) :
    weight op (onRemoved w)+1 ≤ weight op {w with frame := .removedControl ended} := by
  have sent := executeWeight op (d := w.dum) .addReg
  rw [onRemovedFrom]
  split
  · split
    · rename_i on
      rw [kept] at on
      subst on
      simp only [weight,frameWeight,sendAddRegMsg,dispatch,World.decide,commandWeight,requestWeight,addWeight,
        removedWeight,if_true,idle] at sent ⊢
      omega
    · simp only [weight,frameWeight,removedWeight,idle]
      split <;> omega
  · simp only [weight,frameWeight,removedWeight,idle]
    split <;> omega

theorem rewriteDrops (env : Env) (r : Response) (goesOn : Bool) :
    weight op {(rewriteContacts env r goesOn w).2 with frame := .successNotify (rewriteContacts env r goesOn w).1}+1 ≤
      weight op {w with frame := .successRewrite r goesOn} +
        (if goesOn && rewriteApplies env r then 13 else 0) := by
  rcases rewriteFrom env r goesOn w with ⟨on,applies,contacts,result⟩ | ⟨none,result⟩
  · rw [result,on,applies,lockedUpdateReg]
    have update : commandWeight op (.updateReg w.handle contacts) ≤ 13 := by
      cases op <;> simp [commandWeight,requestWeight,addWeight,removedWeight]
    split
    · simp only [weight,frameWeight,overrideHosts,sendUpdateRegMsg,post,World.decide,List.map_append,List.sum_append,
        List.map_cons,List.map_nil,List.sum_cons,List.sum_nil,Bool.and_self,if_true]
      omega
    · simp only [weight,frameWeight,overrideHosts]
      omega
  · rw [result]
    simp only [weight,frameWeight]
    omega

end

section
variable {w u : World} {env : Env}

/- No outcome changes what the user wants. -/
theorem controlWants : (controlSuccess w).2.controller.registOp = w.controller.registOp := by
  rw [controlSuccessFrom]
  split
  · split <;> simp_all [sendEndRegMsg,dispatch,World.decide]
  · split <;> rfl

theorem removedWants : (onRemoved w).controller.registOp = w.controller.registOp := by
  rw [onRemovedFrom]
  split
  · split <;> simp_all [sendAddRegMsg,dispatch,World.decide]
  · rfl

theorem rewriteWants (r : Response) (goesOn : Bool) :
    (rewriteContacts env r goesOn w).2.controller.registOp = w.controller.registOp := by
  rcases rewriteFrom env r goesOn w with ⟨_,_,contacts,result⟩ | ⟨_,result⟩
  · rw [result,lockedUpdateReg]
    split <;> rfl
  · rw [result]

theorem failureWants : (locked .dum onRegFailure w).controller.registOp = w.controller.registOp := by
  rw [lockedFailure]
  split <;> rfl

/- What a settling step does to the measure. -/
def Drops (env : Env) (w : World) (e : Event) (u : World) : Prop :=
  u.controller.registOp = w.controller.registOp ∧
    weight w.controller.registOp u+1 ≤ weight w.controller.registOp w + cost env w e

theorem advanceDrops (ok : advance env w = some u) : Drops env w .advance u := by
  unfold advance at ok
  split at ok <;> try contradiction
  all_goals rename_i frame; cases Option.some.inj ok
  · refine ⟨rfl,?_⟩
    simp only [weight,frame,frameWeight,assignHandle]
    split <;> omega
  · rename_i o r
    refine ⟨controlWants,?_⟩
    have drops := controlDrops w.controller.registOp (w := {w with frame := .idle}) (o := o) r rfl
    simp only [weight,frame] at drops ⊢
    omega
  · rename_i r goesOn
    refine ⟨rewriteWants r goesOn,?_⟩
    have drops := rewriteDrops w.controller.registOp (w := {w with frame := .idle}) env r goesOn
    simp only [weight,frame,cost,rewrites] at drops ⊢
    omega
  · unfold notifyDone
    split <;> refine ⟨rfl,?_⟩ <;> simp only [weight,frame,frameWeight,notify] <;> omega
  · rename_i ended
    refine ⟨removedWants,?_⟩
    have drops := removedDrops w.controller.registOp (w := {w with frame := .idle}) ended rfl rfl
    simp only [weight,frame] at drops ⊢
    omega
  · refine ⟨rfl,?_⟩
    simp only [weight,frame,frameWeight,assignHandle]
    omega
  · refine ⟨rfl,?_⟩
    simp only [weight,frame,frameWeight,notify]
    omega
  · refine ⟨failureWants,?_⟩
    rw [lockedFailure]
    split <;> simp only [weight,frame,frameWeight] <;> omega

theorem stepDrops {e : Event} (settles : settling e = true) (ok : step env w e = some u) : Drops env w e u := by
  cases e with
  | login t => cases settles
  | logout t => cases settles
  | refreshed h r => cases settles
  | refreshFailed h => cases settles
  | requestRetry h => cases settles
  | advance => exact advanceDrops ok
  | execute =>
    simp only [step] at ok
    split at ok <;> try contradiction
    rename_i c rest queue
    obtain ⟨_,_,rfl⟩ := dumStepExact ok
    have executed := executeWeight w.controller.registOp (d := w.dum) c
    refine ⟨rfl,?_⟩
    simp only [weight,queue,List.map_cons,List.sum_cons]
    omega
  | success x r =>
    obtain ⟨idle,enabled,rfl⟩ := dumStepExact ok
    simp only [Bool.and_eq_true,Bool.or_eq_true,beq_iff_eq,List.contains_iff_mem] at enabled
    have resolved := resolveWeight w.controller.registOp enabled.1
    have heavy : requestWeight w.controller.registOp x.request = addWeight w.controller.registOp := by
      rcases enabled.2 with same | same <;> rw [same] <;> rfl
    refine ⟨rfl,?_⟩
    simp only [weight,reportSuccess,frameWeight,idle,heavy,addWeight] at resolved ⊢
    split at resolved <;> split <;> first | contradiction | omega
  | removed x =>
    simp only [step] at ok
    split at ok <;> try contradiction
    · rename_i request
      obtain ⟨idle,enabled,rfl⟩ := dumStepExact ok
      have dropped := dropWeight w.controller.registOp (List.contains_iff_mem.mp enabled)
      refine ⟨rfl,?_⟩
      simp only [weight,reportRemoved,frameWeight,idle,request,requestWeight,endWeight,removedWeight] at dropped ⊢
      split at dropped <;> split <;> first | contradiction | omega
    · rename_i request
      obtain ⟨idle,enabled,rfl⟩ := dumStepExact ok
      have resolved := resolveWeight w.controller.registOp (List.contains_iff_mem.mp enabled)
      refine ⟨rfl,?_⟩
      simp only [weight,reportRemoved,frameWeight,idle,request,askWeight,requestWeight] at resolved ⊢
      omega
  | failure x =>
    obtain ⟨idle,enabled,rfl⟩ := dumStepExact ok
    have dropped := dropWeight w.controller.registOp (List.contains_iff_mem.mp enabled)
    have heavy : 4 ≤ requestWeight w.controller.registOp x.request := by
      cases x.request <;> cases w.controller.registOp <;> decide
    refine ⟨rfl,?_⟩
    simp only [weight,reportFailure,frameWeight,idle]
    omega

theorem sumAtMost {A : Type} (f : A → Nat) {k : Nat} (each : ∀ a, f a ≤ k) (l : List A) :
    (l.map f).sum ≤ k * l.length := by
  have bound := (l.map f).sum_le_card_nsmul k (by simpa using fun a _ => each a)
  simpa [Nat.mul_comm] using bound

theorem weightAtMost (op : Bool) (w : World) :
    weight op w ≤ 13 * w.queue.length + 12 * w.dum.inFlight.length + 8 := by
  have queue := sumAtMost (commandWeight op) (k := 13) (fun c => by
    cases c <;> cases op <;> simp [commandWeight,requestWeight,addWeight,endWeight,removedWeight]) w.queue
  have dum := sumAtMost (fun x : InFlight => requestWeight op x.request) (k := 12) (fun x => by
    cases x.request <;> cases op <;> decide) w.dum.inFlight
  have frame : frameWeight op w.frame ≤ 8 := by
    cases w.frame <;> cases op <;> simp [frameWeight,removedWeight]
  simp only [weight,dumWeight]
  omega

theorem restsOrSteps (env : Env) (w : World) :
    Quiescent w ∨ ∃ e, settling e = true ∧ (step env w e).isSome = true := by
  by_cases idle : w.frame = .idle
  · cases queue : w.queue with
    | cons c rest => exact .inr ⟨.execute,rfl,by simp [step,queue,dumStep,idle]⟩
    | nil =>
      cases inFlight : w.dum.inFlight with
      | nil => exact .inl ⟨idle,queue,inFlight⟩
      | cons x rest => exact .inr ⟨.failure x,rfl,by simp [step,dumStep,idle,inFlight]⟩
  · refine .inr ⟨.advance,rfl,?_⟩
    simp only [step,advance]
    split <;> first | contradiction | rfl

end

/-! At rest. -/

/- Nobody has left an outcome unheard: no Login is lost to a failure that is being
reported, no failure to a controller that is Deregistering, and no refresh is taken
for the outcome of an update. -/
def Heard (w : World) (e : Event) : Prop := (LoginHeard w e ∧ HeardFailure w e) ∧ RefreshKnown w e
instance (w : World) : (e : Event) → Decidable (RefreshKnown w e)
  | .refreshed _ _ => instDecidableNot
  | .login _ | .logout _ | .execute | .advance | .success _ _ | .removed _ | .failure _ | .refreshFailed _
  | .requestRetry _ => .isTrue trivial
instance (w e) : Decidable (Heard w e) := instDecidableAnd

/- The controller, the handle and the DUM agree, and they agree with the user. -/
def AtRest (w : World) : Prop :=
  (w.controller.state = .registered ∧ w.history.lastOp = some .login ∧
    ∃ h, w.dum.live = [h] ∧ w.handle = some h) ∨
  (w.controller.state = .deregistered ∧ w.dum.live = [] ∧
    (w.history.lastOp = some .login → w.history.failedSinceLogin = true))

structure Sound (w : World) : Prop where
  intent : Intent w
  tracked : ∃ p, Tracked w p ∧ p ≠ .stuck

theorem keepsSound (env : Env) : Keeps (step env) Heard Sound := by
  intro w e u ⟨intent,p,tracked,free⟩ ⟨⟨login,failure⟩,known⟩ ok
  obtain ⟨q,next,moves⟩ := stepTracked tracked known ok
  exact ⟨keepsIntent env w e u intent login ok,q,next,moves.unstuck failure free⟩

theorem startSound : Sound World.initial := ⟨initialIntent,.unbound,initialTracked,by simp⟩

/- Only two phases leave nothing to do. -/
theorem atRestOf {w : World} (sound : Sound w) (rest : Quiescent w) : AtRest w := by
  obtain ⟨intent,p,⟨follows,_⟩,free⟩ := sound
  obtain ⟨idle,queue,inFlight⟩ := rest
  have state := follows.state
  have frame := follows.frame
  have queued := follows.queued
  have asked := follows.inFlight
  rw [idle] at frame
  rw [queue] at queued
  rw [inFlight] at asked
  cases p with
  | unbound =>
    exact .inr ⟨state,follows.live,fun last => intent.deregistered state (intent.flag.mpr last)⟩
  | held h =>
    exact .inl ⟨state,intent.flag.mp (intent.registered state),h,follows.live,follows.bound h rfl⟩
  | addQueued | endQueued h | updateQueued h contacts => simp [Phase.queued] at queued
  | addAsked h | endAsked h | updateAsked h | updateRemoved h => simp [Phase.inFlight] at asked
  | addAnswered h | updateAnswered h => exact frame.elim
  | endAnswered => exact Frame.noConfusion frame
  | failing s => exact absurd frame.1 (by simp [Frame.failing])
  | stuck => contradiction

/- The registration behind a NAT, with the contact to rewrite; then the update's two answers. -/
def rewriting : List Event :=
  [.execute,.success ⟨0,.addReg⟩ OneOperation.outsideResponse,.advance,.advance,.advance,.advance]

def rewritten : List Event :=
  [.execute,.removed ⟨0,.removeAll⟩,.advance,.success ⟨0,.addBinding⟩ ⟨[],none⟩,.advance,.advance,.advance,.advance]

/- Left alone, a registration settles: no more than 13 steps for each queued closure and
each contact to rewrite, 12 for each pending request and 8 for the running callback, and
whatever the order, when none is left it stands as the user last asked. -/
theorem registrationSettles (env : Env) (events alone : List Event) (w u : World)
    (ok : run (step env) World.initial events = some w) (later : run (step env) w alone = some u)
    (heard : Meets (step env) Heard World.initial (events ++ alone)) (settles : ∀ e ∈ alone, settling e = true) :
    alone.length ≤ 13 * w.queue.length + 12 * w.dum.inFlight.length + 8 + spent (step env) (cost env) w alone ∧
    ((Quiescent u ∧ AtRest u) ∨ ∃ e, settling e = true ∧ (step env u e).isSome = true) := by
  constructor
  · have drops : ∀ v e x, settling e = true → step env v e = some x →
        1 + weight x.controller.registOp x ≤ weight v.controller.registOp v + cost env v e := by
      intro v e x quiet next
      obtain ⟨wants,less⟩ := stepDrops quiet next
      rw [wants]
      omega
    have bounded := runBounded drops (meetsOfEvents (fun e member _ => settles e member) w) later
    have most := weightAtMost w.controller.registOp w
    rw [spentEach later] at bounded
    omega
  · rcases restsOrSteps env u with rest | more
    · have sound := visitsLast (visitsOfKeeps (keepsSound env) startSound heard) (runAppend ok later)
      exact .inl ⟨rest,atRestOf sound rest⟩
    · exact .inr more

/- Logged in behind a NAT and left alone: the rewritten contact is registered. -/
theorem rewrittenSettles : ∃ w u,
    run (step plainEnv) World.initial [.login .user] = some w ∧
    run (step plainEnv) w (rewriting ++ rewritten) = some u ∧
    (rewriting ++ rewritten).length ≤ 13 * w.queue.length + 12 * w.dum.inFlight.length + 8 +
      spent (step plainEnv) (cost plainEnv) w (rewriting ++ rewritten) ∧
    ((Quiescent u ∧ AtRest u) ∨ ∃ e, settling e = true ∧ (step plainEnv u e).isSome = true) :=
  ⟨_,_,rfl,rfl,registrationSettles plainEnv [.login .user] (rewriting ++ rewritten) _ _ rfl rfl
    (by decide) (by decide)⟩

/- While no failure is being reported, the one registration of a Registered or Updating
controller is valid, and the context has its handle. -/
def Held (w : World) : Prop :=
  w.dum.live.length ≤ 1 ∧
  (w.controller.state = .registered ∨ w.controller.state = .updating → w.frame.failing = false →
    ∃ h ∈ w.handle, w.dum.live = [h]) ∧
  (w.controller.state = .deregistered → w.dum.live = [])
instance (w) : Decidable (Held w) := by unfold Held; infer_instance

theorem heldOf {w : World} {p : Phase} (follows : Follows w p) : Held w := by
  have state := follows.state
  have live := follows.live
  have frame := follows.frame
  refine ⟨?_,?_,?_⟩
  · rw [live]
    cases p <;> exact Nat.le_of_ble_eq_true rfl
  · intro active calm
    rw [state] at active
    cases p with
    | held h | updateQueued h contacts | updateAsked h | updateRemoved h | updateAnswered h =>
      exact ⟨h,follows.bound h rfl,live⟩
    | failing s => exact absurd frame.1 (by simp [calm])
    | _ => simp [Phase.state] at active
  · intro gone
    cases unboundOf follows gone
    exact live

/- Never two registrations of one user, and none that the context has no handle of. -/
theorem registrationHeld (env : Env) (events : List Event)
    (known : Meets (step env) RefreshKnown World.initial events) : Visits (step env) Held World.initial events := by
  have keeps : Keeps (step env) RefreshKnown (fun w => ∃ p, Tracked w p) := by
    intro w e u ⟨p,tracked⟩ known ok
    obtain ⟨q,next,_⟩ := stepTracked tracked known ok
    exact ⟨q,next⟩
  exact visitsMono (fun _ ⟨_,tracked⟩ => heldOf tracked.follows)
    (visitsOfKeeps keeps ⟨.unbound,initialTracked⟩ known)

theorem rewrittenHeld :
    Visits (step plainEnv) Held World.initial ([.login .user] ++ rewriting ++ rewritten) :=
  registrationHeld plainEnv _ (by decide)

/- A refresh's success before the update's closure has run: the update's removal is then
taken for the un-registration's, and the next Login makes a second registration. -/
example : ¬ Visits (step plainEnv) Held World.initial ([.login .user] ++ rewriting ++
    [.refreshed 0 ⟨[],none⟩,.advance,.advance,.advance,.advance,.execute,.logout .user,.execute,
      .removed ⟨0,.removeAll⟩,.advance,.login .user,.execute]) := by
  decide

end RtcCall.Settles
