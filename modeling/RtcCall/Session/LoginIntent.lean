import RtcCall.Session.UserContext

/-! The last Login or Logout against the state the controller comes to rest in.
Nothing here depends on what the DUM does: the flag, the state and the failure
callback alone decide whether a Login is heard. -/
namespace RtcCall.LoginIntent
open RportUpdate UserState UserContext StepRuns

/- No callback is running, no registration operation is queued or in flight. -/
def Quiescent (w : World) : Prop := w.frame = .idle ∧ w.queue = [] ∧ w.dum.inFlight = []
instance (w) : Decidable (Quiescent w) := by unfold Quiescent; infer_instance

def IntentKept (w : World) : Prop :=
  Quiescent w →
    (w.controller.state = .registered → w.history.lastOp = some .login) ∧
    (w.history.lastOp = some .login → w.controller.state = .deregistered →
      w.history.failedSinceLogin = true)
instance (w) : Decidable (IntentKept w) := by unfold IntentKept; infer_instance

/- No Login between the DUM's report of a failure and the controller's OnRegFailure,
unless the controller is Deregistering and ignores the failure. -/
def LoginHeard (w : World) : Event → Prop
  | .login _ => w.frame.failing = true → w.controller.state = .deregistering
  | _ => True
instance (w e) : Decidable (LoginHeard w e) := by cases e <;> unfold LoginHeard <;> infer_instance

structure Intent (w : World) : Prop where
  flag : w.controller.registOp = true ↔ w.history.lastOp = some .login
  registered : w.controller.state = .registered → w.controller.registOp = true
  deregistered : w.controller.state = .deregistered → w.controller.registOp = true →
    w.history.failedSinceLogin = true
  failing : w.frame.failing = true → w.controller.state ≠ .deregistering →
    w.controller.registOp = true → w.history.failedSinceLogin = true

theorem intentGives {w} (h : Intent w) : IntentKept w :=
  fun _ => ⟨fun state => h.flag.mp (h.registered state),
    fun last state => h.deregistered state (h.flag.mpr last)⟩

theorem initialIntent : Intent World.initial := by
  refine ⟨?_,?_,?_,?_⟩ <;> simp [World.initial,SipUserController.new,Frame.failing]

/- The statements that only touch the handle, the effects, the queue or the DUM. -/
theorem intentOf {w u : World} (h : Intent w) (controller : u.controller = w.controller)
    (last : u.history.lastOp = w.history.lastOp)
    (failed : w.history.failedSinceLogin = true → u.history.failedSinceLogin = true)
    (frame : u.frame.failing = true → w.frame.failing = true ∨ u.history.failedSinceLogin = true) :
    Intent u := by
  refine ⟨?_,?_,?_,?_⟩
  · rw [controller,last]; exact h.flag
  · rw [controller]; exact h.registered
  · rw [controller]; exact fun state op => failed (h.deregistered state op)
  · rw [controller]
    intro failing state op
    rcases frame failing with before | now
    · exact failed (h.failing before state op)
    · exact now

theorem loginIntent (w : World) (t : Thread) (heard : LoginHeard w (.login t)) : Intent (login t w) := by
  unfold login
  rw [lockedRegister]
  by_cases state : w.controller.state = .deregistered
  · have frame : w.frame.failing = false := by
      cases failing : w.frame.failing with
      | false => rfl
      | true => simp [heard failing] at state
    cases t <;> refine ⟨?_,?_,?_,?_⟩ <;>
      simp [state,sendAddRegMsg,dispatch,post,World.decide,frame]
  · refine ⟨?_,?_,?_,?_⟩ <;> simp [state]
    exact heard

theorem logoutIntent (w : World) (t : Thread) : Intent (logout t w) := by
  unfold logout
  rw [lockedDeregister]
  by_cases state : w.controller.state = .registered
  · cases t <;> refine ⟨?_,?_,?_,?_⟩ <;>
      simp [state,sendEndRegMsg,dispatch,post,World.decide]
  · refine ⟨?_,?_,?_,?_⟩ <;> simp [state]

theorem successIntent {w : World} (h : Intent w) (idle : w.frame = .idle) (r : Response) :
    Intent {(controlSuccess w).2 with frame := .successRewrite r (controlSuccess w).1} := by
  rw [controlSuccessFrom]
  have flag := h.flag
  have registered := h.registered
  have deregistered := h.deregistered
  split
  · split
    · rename_i op
      refine ⟨?_,?_,?_,?_⟩ <;> simp_all [Frame.failing]
    · rename_i op
      refine ⟨?_,?_,?_,?_⟩ <;>
        simp_all [Frame.failing,sendEndRegMsg,dispatch,World.decide]
  · split <;> exact intentOf h rfl rfl id (by simp [Frame.failing])

theorem rewriteIntent {env} {w : World} (h : Intent w) (r : Response) (done : Bool) :
    Intent {(rewriteContacts env r done w).2 with
      frame := .successNotify (rewriteContacts env r done w).1} := by
  have same : Intent {w with frame := .successNotify (rewriteContacts env r done w).1} :=
    intentOf h rfl rfl id (by simp [Frame.failing])
  have flag := h.flag
  unfold rewriteContacts
  split
  · split
    · exact intentOf h rfl rfl id (by simp [Frame.failing])
    · split
      · rw [lockedUpdateReg]
        split
        · refine ⟨?_,?_,?_,?_⟩ <;>
            simp [overrideHosts,sendUpdateRegMsg,post,World.decide,Frame.failing,flag]
        · exact intentOf h rfl rfl id (by simp [Frame.failing])
      · exact intentOf h rfl rfl id (by simp [Frame.failing])
  · exact intentOf h rfl rfl id (by simp [Frame.failing])

theorem removedIntent {w : World} (h : Intent w) (idle : w.frame = .idle) : Intent (onRemoved w) := by
  have flag := h.flag
  rw [onRemovedFrom]
  split
  · split
    · refine ⟨?_,?_,?_,?_⟩ <;> simp_all [sendAddRegMsg,dispatch,World.decide,Frame.failing]
    · refine ⟨?_,?_,?_,?_⟩ <;> simp_all [Frame.failing]
  · exact h

theorem failureIntent {w : World} (h : Intent w) (failing : w.frame.failing = true) :
    Intent (locked .dum onRegFailure {w with frame := .idle}) := by
  have flag := h.flag
  have failed := h.failing failing
  rw [lockedFailure]
  split
  · exact intentOf h rfl rfl id (by simp [Frame.failing])
  · refine ⟨?_,?_,?_,?_⟩ <;> simp_all [Frame.failing]

theorem advanceIntent {env w u} (h : Intent w) (ok : advance env w = some u) : Intent u := by
  have cleared : Intent {w with frame := .idle} := intentOf h rfl rfl id (by simp [Frame.failing])
  unfold advance at ok
  split at ok <;> try contradiction
  all_goals cases Option.some.inj ok
  · exact intentOf h rfl rfl id (by simp [Frame.failing])
  · exact successIntent cleared rfl _
  · exact rewriteIntent cleared _ _
  · unfold notifyDone; split <;> exact intentOf h rfl rfl id (by simp [notify,Frame.failing])
  · exact removedIntent cleared rfl
  · rename_i frame; exact intentOf h rfl rfl id (by simp [frame,Frame.failing])
  · rename_i frame; exact intentOf h rfl rfl id (by simp [frame,Frame.failing])
  · rename_i frame; exact failureIntent h (by simp [frame,Frame.failing])

theorem keepsIntent (env) : Keeps (step env) LoginHeard Intent := by
  intro w e u h heard ok
  cases e with
  | login t => cases Option.some.inj ok; exact loginIntent w t heard
  | logout t => cases Option.some.inj ok; exact logoutIntent w t
  | advance => exact advanceIntent h ok
  | execute =>
    simp only [step] at ok
    split at ok <;> try contradiction
    obtain ⟨_,_,rfl⟩ := dumStepExact ok
    exact intentOf h rfl rfl id .inl
  | success x r =>
    obtain ⟨_,_,rfl⟩ := dumStepExact ok
    exact intentOf h rfl rfl id (by simp [reportSuccess,Frame.failing])
  | removed x =>
    simp only [step] at ok
    split at ok <;> try contradiction
    all_goals
      obtain ⟨_,_,rfl⟩ := dumStepExact ok
      exact intentOf h rfl rfl id (by simp [reportRemoved,Frame.failing])
  | failure x =>
    obtain ⟨_,_,rfl⟩ := dumStepExact ok
    exact intentOf h rfl rfl (fun _ => rfl) (fun _ => .inr rfl)
  | refreshed x r =>
    obtain ⟨_,_,rfl⟩ := dumStepExact ok
    exact intentOf h rfl rfl id (by simp [reportSuccess,Frame.failing])
  | refreshFailed x =>
    obtain ⟨_,_,rfl⟩ := dumStepExact ok
    exact intentOf h rfl rfl (fun _ => rfl) (fun _ => .inr rfl)
  | requestRetry x =>
    obtain ⟨_,_,rfl⟩ := dumStepExact ok
    exact intentOf h rfl rfl id .inl

theorem lastIntentKept (env : Env) (events : List Event)
    (heard : Meets (step env) LoginHeard World.initial events) :
    Visits (step env) IntentKept World.initial events :=
  visitsMono (fun _ => intentGives) (visitsOfKeeps (keepsIntent env) initialIntent heard)

/- A Login in the middle of an un-registration, which the removal then carries out. -/
def loginWhileLeaving : List Event :=
  [.login .user,.execute,.success ⟨0,.addReg⟩ ⟨[],none⟩,.advance,.advance,.advance,.advance,
    .logout .user,.login .user,.execute,.removed ⟨0,.endReg⟩,.advance]

theorem loginWhileLeavingKept : Visits (step plainEnv) IntentKept World.initial loginWhileLeaving :=
  lastIntentKept plainEnv loginWhileLeaving (by decide)

/- Login from inside OnLoginResult(false): the controller is still Registering,
ignores it, and OnRegFailure then leaves it Deregistered. -/
theorem reentrantLoginLost : ¬ Visits (step plainEnv) IntentKept World.initial
    [.login .user,.execute,.failure ⟨0,.addReg⟩,.advance,.advance,.login .dum,.advance] := by
  decide

end RtcCall.LoginIntent
