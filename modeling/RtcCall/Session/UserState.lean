import RtcCall.Session.RportUpdate

/-! SipUserController and its five states. A handler runs with the mutex held
and only asks its context for messages, so it is a function of the locked
controller that lists what it asked for. SipUserState's defaults are the
defaults of the handler tables; a state lists only what its class overrides. -/
namespace RtcCall.UserState
open RportUpdate (UpdateContacts)

inductive SipUserState where
  | deregistered | registering | registered | deregistering | updating
  deriving DecidableEq, Repr

/- SendAddRegMsg, SendEndRegMsg and SendUpdateRegMsg of the context. -/
inductive RegMsg where
  | addReg
  | endReg
  | updateReg (contacts : UpdateContacts)
  deriving DecidableEq, Repr

structure SipUserController where
  state : SipUserState
  registOp : Bool
  deriving DecidableEq, Repr

def SipUserController.new : SipUserController := ⟨.deregistered,false⟩

structure Locked where
  controller : SipUserController
  sent : List RegMsg
  deriving DecidableEq, Repr

def setState (s : SipUserState) (c : Locked) : Locked := {c with controller := {c.controller with state := s}}
def setRegistOp (op : Bool) (c : Locked) : Locked := {c with controller := {c.controller with registOp := op}}
def send (msg : RegMsg) (c : Locked) : Locked := {c with sent := c.sent ++ [msg]}

structure OpHandlers where
  doRegisteration : Locked → Locked := id
  doDeregisteration : Locked → Locked := id
  doUpdateReg : UpdateContacts → Locked → Locked := fun _ c => c

namespace SipUserDeregisteredState
def doRegisteration (c : Locked) : Locked := setState .registering (send .addReg c)
end SipUserDeregisteredState

namespace SipUserRegisteredState
def doDeregisteration (c : Locked) : Locked := setState .deregistering (send .endReg c)
def doUpdateReg (contacts : UpdateContacts) (c : Locked) : Locked :=
  setState .updating (send (.updateReg contacts) c)
end SipUserRegisteredState

def opHandlers : SipUserState → OpHandlers
  | .deregistered => {doRegisteration := SipUserDeregisteredState.doRegisteration}
  | .registering => {}
  | .registered => {
      doDeregisteration := SipUserRegisteredState.doDeregisteration
      doUpdateReg := SipUserRegisteredState.doUpdateReg}
  | .deregistering => {}
  | .updating => {}

def register (c : Locked) : Locked :=
  setRegistOp true ((opHandlers c.controller.state).doRegisteration c)

def deregister (c : Locked) : Locked :=
  setRegistOp false ((opHandlers c.controller.state).doDeregisteration c)

def updateReg (contacts : UpdateContacts) (c : Locked) : Locked :=
  (opHandlers c.controller.state).doUpdateReg contacts c

structure OutcomeHandlers where
  onRegSuccess : Locked → Bool × Locked := fun c => (true,c)
  onRegFailure : Locked → Locked := id
  onRegRemoved : Locked → Locked := id

/- `if (!controller->regist_op_) controller->Deregister(); return controller->regist_op_;` -/
def deregisterUnlessWanted (c : Locked) : Bool × Locked :=
  let c := if c.controller.registOp then c else deregister c
  (c.controller.registOp,c)

namespace SipUserRegisteringState
def onRegSuccess (c : Locked) : Bool × Locked := deregisterUnlessWanted (setState .registered c)
def onRegFailure (c : Locked) : Locked := setState .deregistered c
end SipUserRegisteringState

namespace SipUserRegisteredState
def onRegSuccess (c : Locked) : Bool × Locked := (c.controller.registOp,c)
def onRegFailure (c : Locked) : Locked := setState .deregistered c
end SipUserRegisteredState

namespace SipUserDeregisteringState
def onRegRemoved (c : Locked) : Locked :=
  let c := setState .deregistered c
  if c.controller.registOp then register c else c
end SipUserDeregisteringState

namespace SipUserUpdatingState
def onRegSuccess (c : Locked) : Bool × Locked := deregisterUnlessWanted (setState .registered c)
def onRegFailure (c : Locked) : Locked := setState .deregistered c
end SipUserUpdatingState

def outcomeHandlers : SipUserState → OutcomeHandlers
  | .deregistered => {}
  | .registering => {
      onRegSuccess := SipUserRegisteringState.onRegSuccess
      onRegFailure := SipUserRegisteringState.onRegFailure}
  | .registered => {
      onRegSuccess := SipUserRegisteredState.onRegSuccess
      onRegFailure := SipUserRegisteredState.onRegFailure}
  | .deregistering => {onRegRemoved := SipUserDeregisteringState.onRegRemoved}
  | .updating => {
      onRegSuccess := SipUserUpdatingState.onRegSuccess
      onRegFailure := SipUserUpdatingState.onRegFailure}

def onRegSuccess (c : Locked) : Bool × Locked := (outcomeHandlers c.controller.state).onRegSuccess c
def onRegFailure (c : Locked) : Locked := (outcomeHandlers c.controller.state).onRegFailure c
def onRegRemoved (c : Locked) : Locked := (outcomeHandlers c.controller.state).onRegRemoved c

/-! What each operation does, state by state; the rest of the development uses
these and never unfolds a handler. -/
section
variable (op : Bool) (sent : List RegMsg)

theorem registerFrom (s : SipUserState) : register ⟨⟨s,op⟩,sent⟩ =
    if s = .deregistered then ⟨⟨.registering,true⟩,sent ++ [.addReg]⟩ else ⟨⟨s,true⟩,sent⟩ := by
  cases s <;> rfl

theorem deregisterFrom (s : SipUserState) : deregister ⟨⟨s,op⟩,sent⟩ =
    if s = .registered then ⟨⟨.deregistering,false⟩,sent ++ [.endReg]⟩ else ⟨⟨s,false⟩,sent⟩ := by
  cases s <;> rfl

theorem updateRegFrom (contacts : UpdateContacts) (s : SipUserState) : updateReg contacts ⟨⟨s,op⟩,sent⟩ =
    if s = .registered then ⟨⟨.updating,op⟩,sent ++ [.updateReg contacts]⟩ else ⟨⟨s,op⟩,sent⟩ := by
  cases s <;> rfl

theorem onRegSuccessFrom (s : SipUserState) : onRegSuccess ⟨⟨s,op⟩,sent⟩ =
    if s = .registering ∨ s = .updating then
      if op then (true,⟨⟨.registered,true⟩,sent⟩)
      else (false,⟨⟨.deregistering,false⟩,sent ++ [.endReg]⟩)
    else if s = .registered then (op,⟨⟨s,op⟩,sent⟩)
    else (true,⟨⟨s,op⟩,sent⟩) := by
  cases s <;> cases op <;> rfl

theorem onRegFailureFrom (s : SipUserState) : onRegFailure ⟨⟨s,op⟩,sent⟩ =
    if s = .deregistering then ⟨⟨s,op⟩,sent⟩ else ⟨⟨.deregistered,op⟩,sent⟩ := by
  cases s <;> rfl

theorem onRegRemovedFrom (s : SipUserState) : onRegRemoved ⟨⟨s,op⟩,sent⟩ =
    if s = .deregistering then
      if op then ⟨⟨.registering,true⟩,sent ++ [.addReg]⟩ else ⟨⟨.deregistered,false⟩,sent⟩
    else ⟨⟨s,op⟩,sent⟩ := by
  cases s <;> cases op <;> rfl

end

end RtcCall.UserState
