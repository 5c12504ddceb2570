import RtcCall.Lib.Runs
import RtcCall.Session.UserState

/-! SipUserContext's registration side between the user's threads and the DUM
thread. A callback of the DUM is run statement by statement, so that calls from
other threads, and re-entrant ones, may fall between any two of them. The DUM is
assumed only to resolve each operation it was asked for, once. -/
namespace RtcCall.UserContext
open RportUpdate UserState

abbrev Handle := Nat

inductive Thread where | user | dum deriving DecidableEq, Repr

/- The closures of the three Send functions, with what they captured. -/
inductive DumCommand where
  | addReg
  | endReg (h : Option Handle)
  | updateReg (h : Option Handle) (contacts : UpdateContacts)
  deriving DecidableEq, Repr

inductive RegOp where | addReg | endReg | updateReg | refresh deriving DecidableEq, Repr

def DumCommand.op : DumCommand → RegOp
  | .addReg => .addReg
  | .endReg _ => .endReg
  | .updateReg _ _ => .updateReg

/- An update is answered twice: removeAll by a removal, then addBinding. -/
inductive Request where | addReg | endReg | removeAll | addBinding deriving DecidableEq, Repr

def Request.op : Request → RegOp
  | .addReg => .addReg
  | .endReg => .endReg
  | .removeAll | .addBinding => .updateReg

structure InFlight where
  handle : Handle
  request : Request
  deriving DecidableEq, Repr

/- `live` are the client registrations whose handle is valid. -/
structure Dum where
  live : List Handle
  inFlight : List InFlight
  fresh : Handle
  calls : List (Handle × RegistrationCall)
  deriving DecidableEq, Repr

def Dum.isValid (d : Dum) : Option Handle → Bool
  | some h => d.live.contains h
  | none => false

def Dum.makeRegistration (d : Dum) : Dum :=
  {d with live := d.fresh :: d.live, inFlight := d.inFlight ++ [⟨d.fresh,.addReg⟩], fresh := d.fresh+1}

def Dum.ask (h : Handle) (r : Request) (d : Dum) : Dum := {d with inFlight := d.inFlight ++ [⟨h,r⟩]}

def Dum.call (h : Handle) (calls : List RegistrationCall) (d : Dum) : Dum :=
  {d with calls := d.calls ++ calls.map (fun c => (h,c))}

def Dum.resolve (x : InFlight) (d : Dum) : Dum := {d with inFlight := d.inFlight.erase x}

/- The registration is gone, its handle invalid and nothing of it in flight. -/
def Dum.drop (h : Handle) (d : Dum) : Dum :=
  {d with live := d.live.filter (· != h), inFlight := d.inFlight.filter (·.handle != h)}

def DumCommand.acts (d : Dum) : DumCommand → Bool
  | .addReg => true
  | .endReg h | .updateReg h _ => d.isValid h

def DumCommand.execute (d : Dum) : DumCommand → Dum
  | .addReg => d.makeRegistration
  | .endReg none => d
  | .endReg (some h) => if d.isValid (some h) then d.ask h .endReg else d
  | .updateReg none _ => d
  | .updateReg (some h) contacts =>
    if d.isValid (some h) then (d.ask h .removeAll).call h (updateCalls contacts) else d

structure UserOptions where
  loginUsingSipRport : Bool
  loginRetryAfterFailure : Int
  deriving DecidableEq, Repr

/- The options of the user and the library's comparison of NameAddrs. -/
structure Env where
  options : UserOptions
  same : NameAddr → NameAddr → Bool

/- The contacts are rewritten by the rport and compared as they are, and a login that
failed is not retried. -/
def plainEnv : Env := ⟨⟨true,-1⟩,fun a b => a == b⟩

/- A success response, with what `h->allContacts()` returns beside it. -/
structure Response where
  allContacts : List NameAddr
  vias : Option (List Via)
  deriving DecidableEq, Repr

/- The DUM thread stands before the named statement of the callback. -/
inductive Frame where
  | idle
  | successAssign (op : RegOp) (h : Handle) (response : Response)
  | successControl (op : RegOp) (response : Response)
  | successRewrite (response : Response) (done : Bool)
  | successNotify (done : Bool)
  | removedControl (ended : Bool)
  | failureAssign (op : RegOp) (h : Handle)
  | failureNotify (op : RegOp)
  | failureControl (op : RegOp)
  deriving DecidableEq, Repr

/- The operation whose final outcome has not reached the controller yet. -/
def Frame.undelivered : Frame → List RegOp
  | .successAssign op _ _ | .successControl op _ | .failureAssign op _ | .failureNotify op
  | .failureControl op => if op = .refresh then [] else [op]
  | .removedControl true => [.endReg]
  | .removedControl false | .idle | .successRewrite _ _ | .successNotify _ => []

def Frame.failing : Frame → Bool
  | .failureAssign _ _ | .failureNotify _ | .failureControl _ => true
  | _ => false

inductive Effect where
  | onLoginResult (success : Bool)
  | addDomain (host : String)
  | setOverrideHostAndPort (uri : Uri)
  deriving DecidableEq, Repr

inductive UserOp where | login | logout deriving DecidableEq, Repr

structure Decision where
  op : RegOp
  pending : List RegOp
  held : Bool
  deriving DecidableEq, Repr

/- Observed, never read by the program. `held` says that a success was reported
which no later failure or removal has undone. -/
structure History where
  lastOp : Option UserOp
  failedSinceLogin : Bool
  held : Bool
  decisions : List Decision
  deriving DecidableEq, Repr

structure World where
  controller : SipUserController
  handle : Option Handle
  queue : List DumCommand
  dum : Dum
  frame : Frame
  effects : List Effect
  history : History
  deriving DecidableEq, Repr

def World.initial : World :=
  ⟨.new,none,[],⟨[],[],0,[]⟩,.idle,[],⟨none,false,false,[]⟩⟩

def World.pending (w : World) : List RegOp :=
  w.queue.map DumCommand.op ++ w.dum.inFlight.map (·.request.op) ++ w.frame.undelivered

def World.decide (op : RegOp) (w : World) : World :=
  {w with history := {w.history with decisions := w.history.decisions ++ [⟨op,w.pending,w.history.held⟩]}}

def post (command : DumCommand) (w : World) : World := {w with queue := w.queue ++ [command]}

def dispatch (t : Thread) (command : DumCommand) (w : World) : World := match t with
  | .dum => {w with dum := command.execute w.dum}
  | .user => post command w

def sendAddRegMsg (t : Thread) (w : World) : World := dispatch t .addReg (w.decide .addReg)

def sendEndRegMsg (t : Thread) (w : World) : World := dispatch t (.endReg w.handle) (w.decide .endReg)

def sendUpdateRegMsg (contacts : UpdateContacts) (w : World) : World :=
  post (.updateReg w.handle contacts) (w.decide .updateReg)

def sendRegMsg (t : Thread) (w : World) : RegMsg → World
  | .addReg => sendAddRegMsg t w
  | .endReg => sendEndRegMsg t w
  | .updateReg contacts => sendUpdateRegMsg contacts w

/- The thread `t` runs a controller operation under the mutex. -/
def locked (t : Thread) (f : Locked → Locked) (w : World) : World :=
  let c := f ⟨w.controller,[]⟩
  c.sent.foldl (sendRegMsg t) {w with controller := c.controller}

def login (t : Thread) (w : World) : World :=
  let w := locked t register w
  {w with history := {w.history with lastOp := some .login, failedSinceLogin := false}}

def logout (t : Thread) (w : World) : World :=
  let w := locked t deregister w
  {w with history := {w.history with lastOp := some .logout}}

def assignHandle (h : Handle) (w : World) : World := {w with handle := some h}

def notify (success : Bool) (w : World) : World :=
  {w with effects := w.effects ++ [.onLoginResult success]}

def overrideHosts (contacts : UpdateContacts) (w : World) : World :=
  {w with effects := w.effects ++
    contacts.add.flatMap (fun c => [.addDomain c.uri.host,.setOverrideHostAndPort c.uri])}

def controlSuccess (w : World) : Bool × World :=
  ((onRegSuccess ⟨w.controller,[]⟩).1,locked .dum (fun c => (onRegSuccess c).2) w)

def rewriteContacts (env : Env) (response : Response) (done : Bool) (w : World) : Bool × World :=
  if done && env.options.loginUsingSipRport then match response.vias with
    | none => (done,w)
    | some vias => match updateRegisterationByRport env.same response.allContacts vias with
      | (true,contacts) => (false,overrideHosts contacts (locked .dum (updateReg contacts) w))
      | (false,_) => (done,w)
  else (done,w)

def notifyDone (done : Bool) (w : World) : World := if done then notify true w else w

def onSuccess (env : Env) (h : Handle) (response : Response) (w : World) : World :=
  let control := controlSuccess (assignHandle h w)
  let rewritten := rewriteContacts env response control.1 control.2
  notifyDone rewritten.1 rewritten.2

def onRemoved (w : World) : World := locked .dum onRegRemoved w

def onRequestRetry (env : Env) (h : Handle) (w : World) : Int × World :=
  (env.options.loginRetryAfterFailure,assignHandle h w)

def onFailure (h : Handle) (w : World) : World :=
  locked .dum onRegFailure (notify false (assignHandle h w))

/- One statement of the running callback. The outcome counts as delivered when
the controller's operation starts, so the frame is cleared first. -/
def advance (env : Env) (w : World) : Option World := match w.frame with
  | .idle => none
  | .successAssign op h r => some {assignHandle h w with frame := .successControl op r}
  | .successControl _ r =>
    let out := controlSuccess {w with frame := .idle}
    some {out.2 with frame := .successRewrite r out.1}
  | .successRewrite r done =>
    let out := rewriteContacts env r done {w with frame := .idle}
    some {out.2 with frame := .successNotify out.1}
  | .successNotify done => some (notifyDone done {w with frame := .idle})
  | .removedControl _ => some (onRemoved {w with frame := .idle})
  | .failureAssign op h => some {assignHandle h w with frame := .failureNotify op}
  | .failureNotify op => some {notify false w with frame := .failureControl op}
  | .failureControl _ => some (locked .dum onRegFailure {w with frame := .idle})

def reportSuccess (op : RegOp) (h : Handle) (r : Response) (dum : Dum) (w : World) : World :=
  {w with frame := .successAssign op h r, dum := dum, history := {w.history with held := true}}

def reportRemoved (ended : Bool) (dum : Dum) (w : World) : World :=
  {w with frame := .removedControl ended, dum := dum, history := {w.history with held := false}}

def reportFailure (op : RegOp) (h : Handle) (w : World) : World :=
  {w with
    frame := .failureAssign op h
    dum := w.dum.drop h
    history := {w.history with held := false, failedSinceLogin := true}}

def Dum.established (d : Dum) (h : Handle) : Bool :=
  d.live.contains h && !d.inFlight.contains ⟨h,.addReg⟩

def Dum.quiet (d : Dum) (h : Handle) : Bool := d.inFlight.all (·.handle != h)

inductive Event where
  | login (t : Thread)
  | logout (t : Thread)
  | execute
  | advance
  | success (x : InFlight) (response : Response)
  | removed (x : InFlight)
  | failure (x : InFlight)
  | refreshed (h : Handle) (response : Response)
  | refreshFailed (h : Handle)
  | requestRetry (h : Handle)
  deriving DecidableEq, Repr

/- The DUM reports on its own thread only, and only when no callback is running. -/
def dumStep (w : World) (enabled : Bool) (next : World) : Option World :=
  if w.frame = .idle ∧ enabled = true then some next else none

def step (env : Env) (w : World) : Event → Option World
  | .login t => some (login t w)
  | .logout t => some (logout t w)
  | .advance => UserContext.advance env w
  | .execute => match w.queue with
    | [] => none
    | c::rest => dumStep w true {w with queue := rest, dum := c.execute w.dum}
  | .success x r =>
    dumStep w (w.dum.inFlight.contains x && (x.request == .addReg || x.request == .addBinding))
      (reportSuccess x.request.op x.handle r (w.dum.resolve x) w)
  | .removed x => match x.request with
    | .endReg => dumStep w (w.dum.inFlight.contains x) (reportRemoved true (w.dum.drop x.handle) w)
    | .removeAll => dumStep w (w.dum.inFlight.contains x)
        (reportRemoved false ((w.dum.resolve x).ask x.handle .addBinding) w)
    | .addReg | .addBinding => none
  | .failure x => dumStep w (w.dum.inFlight.contains x) (reportFailure x.request.op x.handle w)
  | .refreshed h r => dumStep w (w.dum.established h) (reportSuccess .refresh h r w.dum w)
  | .refreshFailed h => dumStep w (w.dum.established h && w.dum.quiet h) (reportFailure .refresh h w)
  | .requestRetry h => dumStep w (w.dum.live.contains h) (onRequestRetry env h w).2

/-! The controller's operations as the context runs them. -/
section
variable (t : Thread) (w : World)

theorem lockedRegister : locked t register w =
    if w.controller.state = .deregistered then sendAddRegMsg t {w with controller := ⟨.registering,true⟩}
    else {w with controller := ⟨w.controller.state,true⟩} := by
  unfold locked
  rw [registerFrom]
  split <;> rfl

theorem lockedDeregister : locked t deregister w =
    if w.controller.state = .registered then sendEndRegMsg t {w with controller := ⟨.deregistering,false⟩}
    else {w with controller := ⟨w.controller.state,false⟩} := by
  unfold locked
  rw [deregisterFrom]
  split <;> rfl

theorem lockedUpdateReg (contacts : UpdateContacts) : locked t (updateReg contacts) w =
    if w.controller.state = .registered then
      sendUpdateRegMsg contacts {w with controller := ⟨.updating,w.controller.registOp⟩}
    else w := by
  unfold locked
  rw [updateRegFrom]
  split <;> rfl

theorem controlSuccessFrom : controlSuccess w =
    if w.controller.state = .registering ∨ w.controller.state = .updating then
      if w.controller.registOp then (true,{w with controller := ⟨.registered,true⟩})
      else (false,sendEndRegMsg .dum {w with controller := ⟨.deregistering,false⟩})
    else if w.controller.state = .registered then (w.controller.registOp,w)
    else (true,w) := by
  dsimp only [controlSuccess,locked]
  rw [onRegSuccessFrom]
  split
  · split <;> rfl
  · split <;> rfl

theorem onRemovedFrom : onRemoved w =
    if w.controller.state = .deregistering then
      if w.controller.registOp then sendAddRegMsg .dum {w with controller := ⟨.registering,true⟩}
      else {w with controller := ⟨.deregistered,false⟩}
    else w := by
  unfold onRemoved locked
  rw [onRegRemovedFrom]
  split
  · split <;> rfl
  · rfl

theorem lockedFailure : locked .dum onRegFailure w =
    if w.controller.state = .deregistering then w
    else {w with controller := ⟨.deregistered,w.controller.registOp⟩} := by
  unfold locked
  rw [onRegFailureFrom]
  split <;> rfl

end

def rewriteApplies (env : Env) (r : Response) : Bool :=
  env.options.loginUsingSipRport && match r.vias with
    | none => false
    | some vias => (updateRegisterationByRport env.same r.allContacts vias).1

theorem rewriteFrom (env : Env) (r : Response) (done : Bool) (w : World) :
    (done = true ∧ rewriteApplies env r = true ∧ ∃ contacts,
      rewriteContacts env r done w = (false,overrideHosts contacts (locked .dum (updateReg contacts) w))) ∨
    ((done && rewriteApplies env r) = false ∧ rewriteContacts env r done w = (done,w)) := by
  cases done with
  | false => exact .inr ⟨rfl,by simp [rewriteContacts]⟩
  | true =>
    unfold rewriteContacts rewriteApplies
    cases enabled : env.options.loginUsingSipRport with
    | false => exact .inr ⟨by simp,by simp⟩
    | true =>
      cases found : r.vias with
      | none => exact .inr ⟨by simp,by simp⟩
      | some vias =>
        cases result : updateRegisterationByRport env.same r.allContacts vias with
        | mk applies contacts =>
          cases applies with
          | false => exact .inr ⟨by simp [result],by simp [result]⟩
          | true => exact .inl ⟨rfl,by simp [result],contacts,by simp [result]⟩

theorem dumStepExact {w u next : World} {enabled : Bool} (ok : dumStep w enabled next = some u) :
    w.frame = .idle ∧ enabled = true ∧ u = next := by
  unfold dumStep at ok
  split at ok <;> try contradiction
  rename_i ready
  exact ⟨ready.1,ready.2,(Option.some.inj ok).symm⟩

end RtcCall.UserContext
