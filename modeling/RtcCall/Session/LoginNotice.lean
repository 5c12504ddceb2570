import RtcCall.Session.UserContext

/-! Login notifications. Each callback runs as a whole, in any order and with
any operation as the failed one: the DUM is not assumed to be lawful here. -/
namespace RtcCall.LoginNotice
open RportUpdate UserState UserContext StepRuns

inductive Callback where
  | login (t : Thread)
  | logout (t : Thread)
  | onSuccess (h : Handle) (response : Response)
  | onRemoved
  | onFailure (op : RegOp) (h : Handle)
  deriving DecidableEq, Repr

section
variable (env : Env)

def deliver (w : World) : Callback → World
  | .login t => login t w
  | .logout t => logout t w
  | .onSuccess h r => onSuccess env h r w
  | .onRemoved => onRemoved w
  | .onFailure _ h => onFailure h w

def callbackStep (w : World) (c : Callback) : Option World := some (deliver env w c)

/-! A callback run statement by statement, with nothing in between, is the
callback run as a whole. -/

theorem sendsKeepFrame (t : Thread) (msgs : List RegMsg) (w : World) :
    (msgs.foldl (sendRegMsg t) w).frame = w.frame ∧ (msgs.foldl (sendRegMsg t) w).effects = w.effects := by
  induction msgs generalizing w with
  | nil => exact ⟨rfl,rfl⟩
  | cons m rest ih =>
    have one : (sendRegMsg t w m).frame = w.frame ∧ (sendRegMsg t w m).effects = w.effects := by
      cases m <;> cases t <;> exact ⟨rfl,rfl⟩
    have tail := ih (sendRegMsg t w m)
    exact ⟨tail.1.trans one.1,tail.2.trans one.2⟩

theorem lockedFrame (t : Thread) (f : Locked → Locked) (w : World) : (locked t f w).frame = w.frame :=
  (sendsKeepFrame t _ _).1

theorem lockedEffects (t : Thread) (f : Locked → Locked) (w : World) : (locked t f w).effects = w.effects :=
  (sendsKeepFrame t _ _).2

theorem rewriteFrame (r : Response) (done : Bool) (w : World) :
    (rewriteContacts env r done w).2.frame = w.frame := by
  unfold rewriteContacts
  split
  · split
    · rfl
    · split
      · exact lockedFrame .dum _ w
      · rfl
  · rfl

theorem withSameFrame {w : World} {frame : Frame} (same : w.frame = frame) : {w with frame := frame} = w := by
  subst frame; rfl

theorem successRun (op : RegOp) (h : Handle) (r : Response) (w : World) (idle : w.frame = .idle) :
    run (step env) {w with frame := .successAssign op h r} [.advance,.advance,.advance,.advance] =
      some (onSuccess env h r w) := by
  have assigned : ({w with handle := some h, frame := .idle} : World) = assignHandle h w := by
    simp [assignHandle,← idle]
  have control : (controlSuccess (assignHandle h w)).2.frame = .idle := (lockedFrame _ _ _).trans idle
  have rewritten := (rewriteFrame env r (controlSuccess (assignHandle h w)).1
    (controlSuccess (assignHandle h w)).2).trans control
  simp only [run,step,advance]
  dsimp only [assignHandle] at assigned control rewritten ⊢
  rw [assigned,withSameFrame control,withSameFrame rewritten]
  rfl

theorem failureRun (op : RegOp) (h : Handle) (w : World) (idle : w.frame = .idle) :
    run (step env) {w with frame := .failureAssign op h} [.advance,.advance,.advance] =
      some (onFailure h w) := by
  simp [run,step,advance,onFailure,notify,assignHandle,← idle]

theorem removedRun (ended : Bool) (w : World) (idle : w.frame = .idle) :
    run (step env) {w with frame := .removedControl ended} [.advance] = some (onRemoved w) := by
  simp [run,step,advance,← idle]

/-! What one callback delivers and decides. -/
def delivered (w u : World) : List Effect := u.effects.drop w.effects.length

def decided (w u : World) : List Decision := u.history.decisions.drop w.history.decisions.length

/- The success callback agrees with the registration it leaves behind. -/
def SuccessNotice (w u : World) : Prop :=
  .onLoginResult true ∈ delivered w u ↔
    u.controller.state = .registered ∧ u.history.lastOp = some .login ∧
      ∀ d ∈ decided w u, d.op ≠ .updateReg

/- A failure is only announced for an operation a login was waiting for. -/
def FailureNotice (w u : World) (op : RegOp) : Prop :=
  .onLoginResult false ∈ delivered w u →
    op ≠ .endReg ∧ w.controller.state ≠ .deregistering ∧ w.controller.state ≠ .deregistered

def Agrees (w : World) (c : Callback) : Prop := match c with
  | .onSuccess _ _ => SuccessNotice w (deliver env w c) ∧ .onLoginResult false ∉ delivered w (deliver env w c)
  | .onFailure op _ => FailureNotice w (deliver env w c) op ∧ .onLoginResult true ∉ delivered w (deliver env w c)
  | .login _ | .logout _ | .onRemoved => delivered w (deliver env w c) = []
instance (w c) : Decidable (Agrees env w c) := by
  cases c <;> unfold Agrees <;> (try unfold SuccessNotice) <;> (try unfold FailureNotice) <;> infer_instance

/- The outcome arrives while the controller waits for one or is Registered; a success
that only leads to a contact rewriting is silent in every state. -/
def InTime (w : World) : Callback → Prop
  | .onSuccess _ r => (w.controller.state ≠ .deregistering ∧ w.controller.state ≠ .deregistered) ∨
      rewriteApplies env r = true
  | .onFailure op _ => op ≠ .endReg ∧ w.controller.state ≠ .deregistering ∧ w.controller.state ≠ .deregistered
  | .login _ | .logout _ | .onRemoved => True
instance (w c) : Decidable (InTime env w c) := by cases c <;> unfold InTime <;> infer_instance

theorem deliveredSame {w u : World} (same : u.effects = w.effects) : delivered w u = [] := by
  simp [delivered,same]

theorem deliveredAppend {w u : World} {effects} (more : u.effects = w.effects ++ effects) :
    delivered w u = effects := by
  simp [delivered,more]

/- The flag is the last user operation; nothing else of the history matters here. -/
def Flagged (w : World) : Prop := w.controller.registOp = true ↔ w.history.lastOp = some .login

theorem failureNotice (w : World) (op : RegOp) (h : Handle) :
    Agrees env w (.onFailure op h) ↔ InTime env w (.onFailure op h) := by
  have told : delivered w (onFailure h w) = [.onLoginResult false] :=
    deliveredAppend (lockedEffects .dum onRegFailure (notify false (assignHandle h w)))
  simp [Agrees,InTime,FailureNotice,deliver,told]

/- The rest of onSuccess, after the controller has answered `done`. -/
def finish (r : Response) (done : Bool) (w : World) : World :=
  notifyDone (rewriteContacts env r done w).1 (rewriteContacts env r done w).2

theorem finishSilent (r : Response) (w : World) : finish env r false w = w := by
  simp [finish,rewriteContacts,notifyDone]

theorem finishNotifies {r : Response} (plain : rewriteApplies env r = false) (w : World) :
    finish env r true w = notify true w := by
  rcases rewriteFrom env r true w with ⟨_,applies,_⟩ | ⟨_,same⟩
  · simp [plain] at applies
  · simp [finish,same,notifyDone]

theorem finishRewrites {r : Response} (applies : rewriteApplies env r = true) (w : World) :
    (finish env r true w).controller.state ≠ .registered ∧
      ∃ effects, (finish env r true w).effects = w.effects ++ effects ∧
        ∀ success, .onLoginResult success ∉ effects := by
  rcases rewriteFrom env r true w with ⟨_,_,contacts,result⟩ | ⟨plain,_⟩
  · simp only [finish,result,notifyDone,Bool.false_eq_true,if_false]
    refine ⟨?_,_,congrArg (· ++ _) (lockedEffects .dum (updateReg contacts) w),by simp⟩
    simp only [overrideHosts,lockedUpdateReg]
    split
    · simp [sendUpdateRegMsg,post,World.decide]
    · assumption
  · simp [applies] at plain

theorem successFrom (h : Handle) (r : Response) (w : World) : onSuccess env h r w =
    finish env r (controlSuccess (assignHandle h w)).1 (controlSuccess (assignHandle h w)).2 := rfl

/- Whatever the controller answered `done` for, notifying agrees with the state exactly
when the state is Registered, and only a rewriting keeps the answer silent. -/
theorem doneNotice (w u : World) (r : Response) (effects : u.effects = w.effects)
    (decisions : u.history.decisions = w.history.decisions)
    (last : u.controller.state = .registered → u.history.lastOp = some .login) :
    (SuccessNotice w (finish env r true u) ∧ .onLoginResult false ∉ delivered w (finish env r true u)) ↔
      (u.controller.state = .registered ∨ rewriteApplies env r = true) := by
  cases applies : rewriteApplies env r with
  | true =>
    obtain ⟨state,more,told,silent⟩ := finishRewrites env applies u
    rw [effects] at told
    simp [SuccessNotice,deliveredAppend told,silent,state]
  | false =>
    rw [finishNotifies env applies]
    have told : delivered w (notify true u) = [.onLoginResult true] :=
      deliveredAppend (by simp [notify,effects])
    have undecided : decided w (notify true u) = [] := by simp [decided,notify,decisions]
    have controller : (notify true u).controller = u.controller := rfl
    have lastOp : (notify true u).history.lastOp = u.history.lastOp := rfl
    simp only [SuccessNotice,told,undecided,controller,lastOp]
    simpa using last

theorem silentNotice (w u : World) (effects : u.effects = w.effects)
    (not : u.controller.state = .registered → u.history.lastOp ≠ some .login) :
    SuccessNotice w u ∧ .onLoginResult false ∉ delivered w u := by
  simp only [SuccessNotice,deliveredSame effects]
  exact ⟨⟨fun h => by simp at h,fun h => absurd h.2.1 (not h.1)⟩,by simp⟩

theorem successNotice {w : World} (flagged : Flagged w) (h : Handle) (r : Response) :
    Agrees env w (.onSuccess h r) ↔ InTime env w (.onSuccess h r) := by
  have flag : w.controller.registOp = true ↔ w.history.lastOp = some .login := flagged
  have assigned : (assignHandle h w).controller = w.controller := rfl
  simp only [Agrees,InTime,deliver,successFrom,controlSuccessFrom,assigned]
  split
  · rename_i waiting
    have early : w.controller.state ≠ .deregistering ∧ w.controller.state ≠ .deregistered := by
      rcases waiting with state | state <;> rw [state] <;> decide
    split
    · rename_i op
      have agrees := doneNotice env w {assignHandle h w with controller := ⟨.registered,true⟩} r rfl rfl
        (fun _ => flag.mp op)
      exact ⟨fun _ => .inl early,fun _ => agrees.mpr (.inl rfl)⟩
    · rw [finishSilent]
      have agrees := silentNotice w
        (sendEndRegMsg .dum {assignHandle h w with controller := ⟨.deregistering,false⟩}) rfl
        (fun state => by simp [sendEndRegMsg,dispatch,World.decide] at state)
      exact ⟨fun _ => .inl early,fun _ => agrees⟩
  · rename_i other
    split
    · rename_i state
      have early : w.controller.state ≠ .deregistering ∧ w.controller.state ≠ .deregistered := by
        rw [state]; decide
      refine ⟨fun _ => .inl early,fun _ => ?_⟩
      cases op : w.controller.registOp with
      | true => exact (doneNotice env w (assignHandle h w) r rfl rfl (fun _ => flag.mp op)).mpr (.inl state)
      | false =>
        rw [finishSilent]
        refine silentNotice w (assignHandle h w) rfl (fun _ last => ?_)
        have := flag.mpr last
        simp [op] at this
    · rename_i state
      have late : ¬ (w.controller.state ≠ .deregistering ∧ w.controller.state ≠ .deregistered) := by
        cases hs : w.controller.state <;> simp_all
      have agrees := doneNotice env w (assignHandle h w) r rfl rfl (fun held => absurd held state)
      rw [agrees]
      have assignedState : (assignHandle h w).controller.state ≠ .registered := state
      simp [assignedState,late]

theorem controlFlagged {w : World} (flagged : Flagged w) : Flagged (controlSuccess w).2 := by
  have flag : w.controller.registOp = true ↔ w.history.lastOp = some .login := flagged
  rw [controlSuccessFrom]
  split
  · split <;> simp_all [Flagged,sendEndRegMsg,dispatch,World.decide]
  · split <;> exact flagged

theorem finishFlagged {u : World} (r : Response) (done : Bool) (flagged : Flagged u) :
    Flagged (finish env r done u) := by
  have notified : ∀ b v, Flagged v → Flagged (notifyDone b v) := by
    intro b v h
    cases b <;> exact h
  refine notified _ _ ?_
  rcases rewriteFrom env r done u with ⟨_,_,contacts,result⟩ | ⟨_,result⟩
  · rw [result,lockedUpdateReg]
    split <;> exact flagged
  · rw [result]; exact flagged

theorem keepsFlagged : Keeps (callbackStep env) (fun _ _ => True) Flagged := by
  intro w c u flagged _ ok
  cases Option.some.inj ok
  have flag : w.controller.registOp = true ↔ w.history.lastOp = some .login := flagged
  cases c with
  | login t =>
    simp only [deliver,login,lockedRegister]
    split <;> cases t <;> simp [Flagged,sendAddRegMsg,dispatch,post,World.decide]
  | logout t =>
    simp only [deliver,logout,lockedDeregister]
    split <;> cases t <;> simp [Flagged,sendEndRegMsg,dispatch,post,World.decide]
  | onSuccess h r => exact finishFlagged env r _ (controlFlagged (w := assignHandle h w) flagged)
  | onRemoved =>
    simp only [deliver,onRemovedFrom]
    split
    · split <;> simp_all [Flagged,sendAddRegMsg,dispatch,World.decide]
    · exact flagged
  | onFailure op h =>
    simp only [deliver,onFailure,lockedFailure]
    split <;> simpa [Flagged,notify,assignHandle] using flag

theorem noticesAgreeExactly (callbacks : List Callback) :
    Meets (callbackStep env) (Agrees env) World.initial callbacks ↔
      Meets (callbackStep env) (InTime env) World.initial callbacks := by
  refine meetsCongr (keepsFlagged env) (fun w c flagged => ?_) (by simp [Flagged,World.initial,SipUserController.new])
  cases c with
  | login t => exact ⟨fun _ => trivial,fun _ => deliveredSame (lockedEffects t register w)⟩
  | logout t => exact ⟨fun _ => trivial,fun _ => deliveredSame (lockedEffects t deregister w)⟩
  | onSuccess h r => exact successNotice env flagged h r
  | onRemoved => exact ⟨fun _ => trivial,fun _ => deliveredSame (lockedEffects .dum onRegRemoved w)⟩
  | onFailure op h => exact failureNotice env w op h

end

/- The failed un-registration announces a failed login, a success that arrives while
the un-registration is under way a successful one. -/
theorem logoutAnnounced :
    ¬ Meets (callbackStep plainEnv) (Agrees plainEnv) World.initial
      [.login .user,.onSuccess 0 ⟨[],none⟩,.logout .user,.onFailure .endReg 0] ∧
    ¬ Meets (callbackStep plainEnv) (Agrees plainEnv) World.initial
      [.login .user,.onSuccess 0 ⟨[],none⟩,.logout .user,.onSuccess 0 ⟨[],none⟩] := by
  decide

end RtcCall.LoginNotice
