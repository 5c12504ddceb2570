import RtcCall.Lib.Runs
import RtcCall.Session.Contents

/-! One call object, its SipCallerContext or SipCalleeContext, and the DUM thread.
Every operation is a closure that runs at once on the DUM thread and is queued from
the application's thread. The DUM may take its steps in any order. -/
namespace RtcCall.CallContext

abbrev SessionId := Nat
abbrev InviteId := Nat

inductive Role where | caller | callee deriving DecidableEq, Repr

inductive Thread where | app | dum deriving DecidableEq, Repr

inductive Operation where
  | message (msg : Contents)
  | acceptNIT (code : Int) (msg : Option Contents)
  | rejectNIT (code : Int)
  | accept (answer : Bytes) (code : Int)
  | reject (code : Int)
  deriving DecidableEq, Repr

/- Accept and Reject are a callee's only. -/
def Operation.offered : Operation → Role → Bool
  | .accept _ _, role | .reject _, role => role == .callee
  | .message _, _ | .acceptNIT _ _, _ | .rejectNIT _, _ => true

/- The calls on an invite session of the SIP library. -/
inductive SessionCall where
  | message (body : SipContents)
  | acceptNIT (code : Int) (body : Option SipContents)
  | rejectNIT (code : Int)
  | provideAnswer (answer : Bytes)
  | accept (code : Int)
  | reject (code : Int)
  deriving DecidableEq, Repr

/- What the operation's closure calls on a valid handle. -/
def Operation.calls : Operation → Except Fault (List SessionCall)
  | .message msg => do
    match ← makeContents msg with
    | some body => return [.message body]
    | none => throw .nullContents
  | .acceptNIT code (some msg) => do return [.acceptNIT code (← makeContents msg)]
  | .acceptNIT code none => return [.acceptNIT code none]
  | .rejectNIT code => return [.rejectNIT code]
  | .accept answer code => return [.provideAnswer answer,.accept code]
  | .reject code => return [.reject code]

/- The closures with the handle they captured; GetLocalSdp's reads the member when it
runs. The thread of an operation is recorded for the log only. -/
inductive Closure where
  | invite (offer : Option Bytes)
  | operation (t : Thread) (h : Option SessionId) (op : Operation)
  | endCall (h : Option SessionId)
  | getLocalSdp
  deriving DecidableEq, Repr

structure Session where
  id : SessionId
  invite : InviteId
  connected : Bool
  terminated : Bool
  localSdp : Option Bytes
  deriving DecidableEq, Repr

def Session.live (x : Session) : Bool := !x.terminated

inductive DialogSet where | creating | present | destroyed deriving DecidableEq, Repr

/- `final` says that a final response of the INVITE has been reported. -/
structure Invite where
  id : InviteId
  offer : Option Bytes
  dialogSet : DialogSet
  final : Bool
  deriving DecidableEq, Repr

/- The SipCaller or SipCallee; `ending` is inside its destructor, after End returned. -/
inductive Life where | unborn | alive | ending | gone deriving DecidableEq, Repr

inductive Notice where
  | onInit
  | onFailure
  | onAnswer (answer : Bytes)
  | onConnected
  | onTerminated
  deriving DecidableEq, Repr

structure Issued where
  thread : Thread
  held : Option SessionId
  op : Operation
  deriving DecidableEq, Repr

structure Applied where
  thread : Thread
  session : SessionId
  op : Operation
  calls : List SessionCall
  deriving DecidableEq, Repr

structure Ended where
  session : SessionId
  invite : InviteId
  live : Bool
  deriving DecidableEq, Repr

/- `alone` says that the INVITE had no live session when the CANCEL was sent. -/
structure Cancelled where
  invite : InviteId
  final : Bool
  alone : Bool
  deriving DecidableEq, Repr

/- Observed, never read by the program. `ended` says that End's closure has run. -/
structure Log where
  issued : List Issued
  applied : List Applied
  ends : List Ended
  cancels : List Cancelled
  sdps : List (Option Bytes)
  notices : List Notice
  ended : Bool
  deriving DecidableEq, Repr

structure World where
  role : Role
  h : Option SessionId
  inviteRequestMsg : Option InviteId
  callback : Bool
  object : Life
  queue : List Closure
  invites : List Invite
  sessions : List Session
  fresh : SessionId
  log : Log
  deriving DecidableEq, Repr

def World.initial (role : Role) : World :=
  ⟨role,none,none,false,.unborn,[],[],[],0,⟨[],[],[],[],[],[],false⟩⟩

namespace World
variable (w : World)

def valid (h : Option SessionId) : Option Session :=
  h.bind (fun s => w.sessions.find? (·.id == s))

/- What the closures' weak pointers see: the object or a dialog set holds the context. -/
def contextAlive : Bool :=
  w.object == .alive || w.object == .ending || w.invites.any (·.dialogSet != .destroyed)

def liveSession (i : InviteId) : Bool := w.sessions.any (fun x => x.invite == i && x.live)

def finallyAnswered (i : InviteId) : Bool := w.invites.any (fun x => x.id == i && x.final)

def updateSession (s : SessionId) (f : Session → Session) : World :=
  {w with sessions := w.sessions.map (fun x => if x.id = s then f x else x)}

def updateInvite (i : InviteId) (f : Invite → Invite) : World :=
  {w with invites := w.invites.map (fun x => if x.id = i then f x else x)}

def notify (n : Notice) : World :=
  {w with log := {w.log with notices := w.log.notices ++ if w.callback then [n] else []}}

end World

def doInvite (offer : Option Bytes) (w : World) : World :=
  {w with
    inviteRequestMsg := some w.invites.length
    invites := w.invites ++ [⟨w.invites.length,offer,.present,false⟩]}

def callSession (t : Thread) (s : SessionId) (op : Operation) (calls : List SessionCall) (w : World) : World :=
  {w with log := {w.log with applied := w.log.applied ++ [⟨t,s,op,calls⟩]}}

def endSession (x : Session) (w : World) : World :=
  {w with log := {w.log with ends := w.log.ends ++ [⟨x.id,x.invite,x.live⟩]}}

def sendCancel (i : InviteId) (w : World) : World :=
  {w with log := {w.log with
    cancels := w.log.cancels ++ [⟨i,w.finallyAnswered i,!w.liveSession i⟩]}}

/- What the else branch of SipCallerContext::End cancels; a callee has no such branch. -/
def World.cancelTarget (w : World) : Option InviteId := match w.role with
  | .caller => if w.contextAlive then w.inviteRequestMsg else none
  | .callee => none

def endNow (h : Option SessionId) (w : World) : World := match w.valid h with
  | some x => endSession x w
  | none => match w.cancelTarget with
    | some i => sendCancel i w
    | none => w

def getLocalSdp (w : World) : Option Bytes := (w.valid w.h).bind (·.localSdp)

/- `none` is a fault: the process aborts. -/
def execute (c : Closure) (w : World) : Option World := match c with
  | .invite offer => some (if w.contextAlive then doInvite offer w else w)
  | .operation t h op => match w.valid h with
    | some x => match op.calls with
      | .ok calls => some (callSession t x.id op calls w)
      | .error _ => none
    | none => some w
  | .endCall h =>
    let w := endNow h w
    some {w with log := {w.log with ended := true}}
  | .getLocalSdp => some {w with log := {w.log with sdps := w.log.sdps ++ [getLocalSdp w]}}

def post (c : Closure) (w : World) : World := {w with queue := w.queue ++ [c]}

def dispatch (t : Thread) (c : Closure) (w : World) : Option World := match t with
  | .dum => execute c w
  | .app => some (post c w)

/- The destructor: End, then the object's reference to the context goes. -/
def destroy (t : Thread) (w : World) : Option World := match t with
  | .app => dispatch .app (.endCall w.h) {w with object := .ending}
  | .dum => do return {← dispatch .dum (.endCall w.h) {w with object := .ending} with object := .gone}

def initSession (i : InviteId) (sdp : Option Bytes) (w : World) : World :=
  World.notify {w with
    h := some w.fresh
    sessions := w.sessions ++ [⟨w.fresh,i,false,false,sdp⟩]
    fresh := w.fresh+1} .onInit

inductive Event where
  | newCall
  | setCallback (present : Bool)
  | invite (t : Thread) (offer : Option Bytes)
  | issue (t : Thread) (op : Operation)
  | getLocalSdp (t : Thread)
  | destroy (t : Thread)
  | release
  | execute
  | createAppDialogSet (offer : Option Bytes)
  | dialogSetCreated
  | newSession (i : InviteId) (sdp : Option Bytes)
  | negotiated (s : SessionId) (sdp : Option Bytes)
  | answer (s : SessionId) (text : Bytes)
  | connected (s : SessionId) (i : InviteId)
  | failure (s : SessionId) (i : InviteId)
  | refused (i : InviteId)
  | terminated (s : SessionId) (i : InviteId) (final : Bool)
  | forkDestroyed (s : SessionId)
  | destroySession (s : SessionId)
  | destroyDialogSet (i : InviteId)
  deriving DecidableEq, Repr

def when (enabled : Bool) (next : World) : Option World := if enabled then some next else none

/- The DUM reports on sessions it has not terminated. -/
def World.knows (w : World) (s : SessionId) : Bool := w.sessions.any (fun x => x.id == s && x.live)

def World.reports (w : World) (s : SessionId) (i : InviteId) : Bool :=
  w.sessions.any (fun x => x.id == s && x.invite == i && x.live)

def World.dialogSetIs (w : World) (i : InviteId) (d : DialogSet) : Bool :=
  w.invites.any (fun x => x.id == i && x.dialogSet == d)

def answerFinally (i : InviteId) (w : World) : World := w.updateInvite i (fun x => {x with final := true})

def terminate (s : SessionId) (w : World) : World := w.updateSession s (fun x => {x with terminated := true})

def step (w : World) : Event → Option World
  | .newCall => when (w.role == .caller && w.object == .unborn) {w with object := .alive}
  | .setCallback present => when (w.object == .alive) {w with callback := present}
  | .invite t offer =>
    if w.role = .caller ∧ w.object = .alive then dispatch t (.invite offer) w else none
  | .issue t op =>
    if w.object = .alive ∧ op.offered w.role = true then
      dispatch t (.operation t w.h op)
        {w with log := {w.log with issued := w.log.issued ++ [⟨t,w.h,op⟩]}}
    else none
  | .getLocalSdp t => if w.object = .alive then dispatch t .getLocalSdp w else none
  | .destroy t => if w.object = .alive then CallContext.destroy t w else none
  | .release => when (w.object == .ending) {w with object := .gone}
  | .execute => match w.queue with
    | [] => none
    | c::rest => CallContext.execute c {w with queue := rest}
  | .createAppDialogSet offer => when (w.role == .callee && w.object == .unborn)
      {w with object := .alive, invites := w.invites ++ [⟨w.invites.length,offer,.creating,false⟩]}
  | .dialogSetCreated => when (w.dialogSetIs 0 .creating)
      (w.updateInvite 0 (fun x => {x with dialogSet := .present}))
  | .newSession i sdp => when (w.dialogSetIs i .present) (initSession i sdp w)
  | .negotiated s sdp => when (w.knows s) (w.updateSession s (fun x => {x with localSdp := sdp}))
  | .answer s text => when (w.role == .caller && w.knows s) (w.notify (.onAnswer text))
  | .connected s i => when (w.reports s i)
      ((answerFinally i (w.updateSession s (fun x => {x with connected := true}))).notify .onConnected)
  | .failure s i => when (w.role == .caller && w.reports s i) ((answerFinally i w).notify .onFailure)
  | .refused i => when (w.role == .caller && w.dialogSetIs i .present)
      (((answerFinally i w).notify .onFailure).notify .onTerminated)
  | .terminated s i final => when (w.reports s i)
      ((terminate s (if final then answerFinally i w else w)).notify .onTerminated)
  | .forkDestroyed s => when (w.role == .caller && w.knows s) (terminate s w)
  | .destroySession s => when (w.sessions.any (fun x => x.id == s && x.terminated))
      {w with sessions := w.sessions.filter (·.id != s)}
  | .destroyDialogSet i => when (w.finallyAnswered i && !w.sessions.any (·.invite == i))
      (w.updateInvite i (fun x => {x with dialogSet := .destroyed}))

theorem whenExact {enabled : Bool} {next u : World} (ok : when enabled next = some u) :
    enabled = true ∧ u = next := by
  unfold when at ok
  split at ok <;> try contradiction
  rename_i ready
  exact ⟨ready,(Option.some.inj ok).symm⟩

/-! The steps that run or queue a closure. -/
section
variable {w u : World}

theorem inviteRuns {t : Thread} {offer : Option Bytes} (ok : step w (.invite t offer) = some u) :
    dispatch t (.invite offer) w = some u := by
  simp only [step] at ok
  split at ok <;> try contradiction
  exact ok

theorem issueRuns {t : Thread} {op : Operation} (ok : step w (.issue t op) = some u) :
    dispatch t (.operation t w.h op)
      {w with log := {w.log with issued := w.log.issued ++ [⟨t,w.h,op⟩]}} = some u := by
  simp only [step] at ok
  split at ok <;> try contradiction
  exact ok

theorem getLocalSdpRuns {t : Thread} (ok : step w (.getLocalSdp t) = some u) : dispatch t .getLocalSdp w = some u := by
  simp only [step] at ok
  split at ok <;> try contradiction
  exact ok

theorem destroyRuns {t : Thread} (ok : step w (.destroy t) = some u) :
    w.object = .alive ∧ destroy t w = some u := by
  simp only [step] at ok
  split at ok <;> try contradiction
  rename_i alive
  exact ⟨alive,ok⟩

theorem executeRuns (ok : step w .execute = some u) :
    ∃ c rest, w.queue = c::rest ∧ execute c {w with queue := rest} = some u := by
  simp only [step] at ok
  split at ok <;> try contradiction
  rename_i c rest queue
  exact ⟨c,rest,queue,ok⟩

end

/- What no closure touches. -/
structure Untouched (w u : World) : Prop where
  role : u.role = w.role
  h : u.h = w.h
  sessions : u.sessions = w.sessions
  fresh : u.fresh = w.fresh
  issued : u.log.issued = w.log.issued

theorem endNowUntouched (h : Option SessionId) (w : World) :
    Untouched w (endNow h w) ∧ (endNow h w).object = w.object ∧ (endNow h w).queue = w.queue ∧
      (endNow h w).log.applied = w.log.applied := by
  unfold endNow
  split
  · exact ⟨⟨rfl,rfl,rfl,rfl,rfl⟩,rfl,rfl,rfl⟩
  · split <;> exact ⟨⟨rfl,rfl,rfl,rfl,rfl⟩,rfl,rfl,rfl⟩

theorem endNowInvalid {h : Option SessionId} {w : World} (gone : w.valid h = none) :
    (endNow h w).log.ends = w.log.ends := by
  unfold endNow
  rw [gone]
  split
  · contradiction
  · split <;> rfl

/- An operation's closure calls the session of its handle, or does nothing. -/
theorem operationExact {t : Thread} {h : Option SessionId} {op : Operation} {w u : World}
    (ok : execute (.operation t h op) w = some u) :
    (∃ x calls, w.valid h = some x ∧ op.calls = .ok calls ∧ u = callSession t x.id op calls w) ∨
      (w.valid h = none ∧ u = w) := by
  simp only [execute] at ok
  split at ok
  · rename_i x found
    split at ok <;> try contradiction
    rename_i calls made
    exact .inl ⟨x,calls,found,made,(Option.some.inj ok).symm⟩
  · rename_i missing
    exact .inr ⟨missing,(Option.some.inj ok).symm⟩

theorem executeUntouched {c : Closure} {w u : World} (ok : execute c w = some u) :
    Untouched w u ∧ u.object = w.object ∧ u.queue = w.queue := by
  cases c with
  | invite offer =>
    cases Option.some.inj ok
    split <;> exact ⟨⟨rfl,rfl,rfl,rfl,rfl⟩,rfl,rfl⟩
  | operation t h op =>
    rcases operationExact ok with ⟨x,calls,-,-,rfl⟩ | ⟨-,rfl⟩
    · exact ⟨⟨rfl,rfl,rfl,rfl,rfl⟩,rfl,rfl⟩
    · exact ⟨⟨rfl,rfl,rfl,rfl,rfl⟩,rfl,rfl⟩
  | endCall h =>
    cases Option.some.inj ok
    have kept := endNowUntouched h w
    exact ⟨⟨kept.1.role,kept.1.h,kept.1.sessions,kept.1.fresh,kept.1.issued⟩,kept.2.1,kept.2.2.1⟩
  | getLocalSdp =>
    cases Option.some.inj ok
    exact ⟨⟨rfl,rfl,rfl,rfl,rfl⟩,rfl,rfl⟩

theorem dispatchUntouched {t : Thread} {c : Closure} {w u : World} (ok : dispatch t c w = some u) :
    Untouched w u ∧ u.object = w.object := by
  cases t with
  | dum => exact ⟨(executeUntouched ok).1,(executeUntouched ok).2.1⟩
  | app => cases Option.some.inj ok; exact ⟨⟨rfl,rfl,rfl,rfl,rfl⟩,rfl⟩

theorem destroyUntouched {t : Thread} {w u : World} (ok : destroy t w = some u) : Untouched w u := by
  cases t with
  | app => cases Option.some.inj ok; exact ⟨rfl,rfl,rfl,rfl,rfl⟩
  | dum =>
    simp only [destroy,bind,Option.bind_eq_some_iff,pure,Option.some.injEq] at ok
    obtain ⟨v,ran,rfl⟩ := ok
    have kept := (dispatchUntouched ran).1
    exact ⟨kept.role,kept.h,kept.sessions,kept.fresh,kept.issued⟩

def sessionsAfter (w : World) : Event → List Session
  | .newSession i sdp => w.sessions ++ [⟨w.fresh,i,false,false,sdp⟩]
  | .negotiated s sdp => (w.updateSession s (fun x => {x with localSdp := sdp})).sessions
  | .connected s _ => (w.updateSession s (fun x => {x with connected := true})).sessions
  | .terminated s _ _ | .forkDestroyed s => (terminate s w).sessions
  | .destroySession s => w.sessions.filter (·.id != s)
  | _ => w.sessions

def handleAfter (w : World) : Event → Option SessionId
  | .newSession _ _ => some w.fresh
  | _ => w.h

def freshAfter (w : World) : Event → SessionId
  | .newSession _ _ => w.fresh+1
  | _ => w.fresh

/- Only the DUM's reports change the sessions, and only onNewSession the handle. -/
theorem stepSessions {w u : World} {e : Event} (ok : step w e = some u) :
    u.role = w.role ∧ u.sessions = sessionsAfter w e ∧ u.h = handleAfter w e ∧ u.fresh = freshAfter w e := by
  have closure : ∀ v, Untouched w v → v.role = w.role ∧ v.sessions = w.sessions ∧ v.h = w.h ∧ v.fresh = w.fresh :=
    fun v kept => ⟨kept.role,kept.sessions,kept.h,kept.fresh⟩
  cases e with
  | invite t offer =>
    exact closure u (dispatchUntouched (inviteRuns ok)).1
  | issue t op =>
    have kept := (dispatchUntouched (issueRuns ok)).1
    exact ⟨kept.role,kept.sessions,kept.h,kept.fresh⟩
  | getLocalSdp t =>
    exact closure u (dispatchUntouched (getLocalSdpRuns ok)).1
  | destroy t =>
    exact closure u (destroyUntouched (destroyRuns ok).2)
  | execute =>
    obtain ⟨c,rest,_,ran⟩ := executeRuns ok
    have kept := (executeUntouched ran).1
    exact ⟨kept.role,kept.sessions,kept.h,kept.fresh⟩
  | terminated s i final =>
    obtain ⟨_,rfl⟩ := whenExact ok
    cases final <;> exact ⟨rfl,rfl,rfl,rfl⟩
  | _ =>
    obtain ⟨_,rfl⟩ := whenExact ok
    exact ⟨rfl,rfl,rfl,rfl⟩

end RtcCall.CallContext
