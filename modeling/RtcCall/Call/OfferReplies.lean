import RtcCall.Call.Candidates
import RtcCall.Session.CallContext

/-! A callee Call over its SipCalleeContext: offers arrive on the DUM thread, WebRTC
notifies the outcome of each request later, and the replies become operations of the
context. Each offer should get one reply, and the dialog one accepted answer; an abort
is recorded, and leaves the offers it finds open without one. -/
namespace RtcCall.OfferReplies
open WebRtc Media Descriptions StepRuns
open Ends (streamChanged)
open Candidates (created textLibrary offerText answerText textsParse)

inductive RequestKind where | createAnswer | setDescription deriving DecidableEq, Repr

/- A request to the connection whose notification is still to come. -/
structure Request where
  offer : Nat
  kind : RequestKind
  deriving DecidableEq, Repr

structure Reply where
  offer : Nat
  accepted : Bool
  deriving DecidableEq, Repr

/- A null member that is dereferenced, an operation that the context cannot take, or a
closure that faults when it runs. -/
inductive Abort where
  | missing (m : Missing)
  | operation (op : CallContext.Operation)
  | closure (c : CallContext.Closure)
  deriving DecidableEq, Repr

structure World where
  call : Call
  context : CallContext.World
  offers : Nat
  pending : List Request
  replies : List Reply
  aborted : Option Abort
  deriving DecidableEq, Repr

/- InitCallee has run; the observer is set when the application's OnCallee returns. -/
def World.start (pcFactory : Bool) : World :=
  ⟨{Call.new pcFactory with callee := true},CallContext.World.initial .callee,0,[],[],none⟩

def World.abort (w : World) (a : Abort) : World := {w with aborted := some a}

def World.resolve (w : World) (r : Request) : World := {w with pending := w.pending.erase r}

def reply (r : Reply) (w : World) : World := {w with replies := w.replies ++ [r]}

def request (r : Request) (w : World) : World := {w with pending := w.pending ++ [r]}

def issue (t : CallContext.Thread) (op : CallContext.Operation) (w : World) : World :=
  match CallContext.step w.context (.issue t op) with
  | some context => {w with context := context}
  | none => w.abort (.operation op)

/- An effect of a callback that works for the offer `n`, on its component. -/
def route (t : CallContext.Thread) (n : Nat) (w : World) : Effect → World
  | .accept answer code => reply ⟨n,true⟩ (issue t (.accept answer code) w)
  | .reject code => reply ⟨n,false⟩ (issue t (.reject code) w)
  | .message msg => issue t (.message msg) w
  | .acceptNIT code => issue t (.acceptNIT code none) w
  | .rejectNIT code => issue t (.rejectNIT code) w
  | .createAnswer => request ⟨n,.createAnswer⟩ w
  | .setLocalDescription _ | .setRemoteDescription _ => request ⟨n,.setDescription⟩ w
  | .onAddStream _ _ _ | .createOffer | .invite _ => w

def routeAll (t : CallContext.Thread) (n : Nat) (es : List Effect) (w : World) : World := es.foldl (route t n) w

def perform (t : CallContext.Thread) (n : Nat) (f : CallM Unit) (w : World) : World :=
  match f {w.call with outbox := []} with
  | .ok (_,c) => routeAll t n c.outbox {w with call := {c with outbox := []}}
  | .error m => w.abort (.missing m)

inductive Event where
  | setObserver (observer : Bool)
  | offer (s : CallContext.SessionId) (text : Bytes) (x : Creation)
  | answerCreated (n : Nat) (desc : Description)
  | answerFailed (n : Nat)
  | descriptionSet (n : Nat) (remote success : Bool)
  | message (s : CallContext.SessionId) (msg : Contents)
  | iceCandidate (candidate : Candidate)
  | stream (stream : Stream) (added : Bool)
  | context (e : CallContext.Event)
  deriving DecidableEq, Repr

/- Operations on the context are the Call's own. -/
def fromCall : CallContext.Event → Bool
  | .issue _ _ => true
  | _ => false

/- The Call has its SipCallee for as long as it lives. -/
def World.alive (w : World) : Bool := w.context.object == .alive

/- A callback of the session needs the session, and the Call registered at the context. -/
def World.delivers (w : World) (s : CallContext.SessionId) : Bool :=
  w.alive && w.context.knows s && w.context.callback

/- WebRTC's notification of a request, while there is a Call. -/
def notified (r : Request) (f : CallM Unit) (w : World) : Option World :=
  if w.alive = true ∧ r ∈ w.pending then some (perform .app r.offer f (w.resolve r)) else none

def contextStep (e : CallContext.Event) (w : World) : Option World := match CallContext.step w.context e with
  | some context => some {w with context := context}
  | none => match e,w.context.queue with
    | .execute,c::_ => some (w.abort (.closure c))
    | _,_ => none

def act (lib : Library) (w : World) : Event → Option World
  | .setObserver observer => some {w with call := {w.call with observer := observer}}
  | .offer s text x =>
    if w.delivers s then some (perform .dum w.offers (onOffer lib x text) {w with offers := w.offers+1}) else none
  | .answerCreated n desc => notified ⟨n,.createAnswer⟩ (onCreateSessionDescriptionSuccess desc) w
  | .answerFailed n => notified ⟨n,.createAnswer⟩ onCreateSessionDescriptionFailure w
  | .descriptionSet n remote success => notified ⟨n,.setDescription⟩
      (if success then onSetSessionDescriptionSuccess remote else onSetSessionDescriptionFailure remote) w
  | .message s msg => if w.delivers s then some (perform .dum 0 (onMessage lib msg) w) else none
  | .iceCandidate candidate => if w.alive then some (perform .app 0 (onIceCandidate lib candidate) w) else none
  | .stream stream added => if w.alive then some (perform .app 0 (streamChanged stream added) w) else none
  | .context e => if fromCall e then none else contextStep e w

def step (lib : Library) (w : World) (e : Event) : Option World := if w.aborted = none then act lib w e else none

def isAccept : CallContext.Operation → Bool
  | .accept _ _ => true
  | _ => false

def repliesTo (n : Nat) (w : World) : Nat := w.replies.countP (·.offer == n)

/- How often the closure of Accept has found its handle valid, and run
provideAnswer and accept. -/
def acceptsRun (c : CallContext.World) : Nat := c.log.applied.countP (fun a => isAccept a.op)

/- No notification for the offer is to come, be it that the process is gone. -/
def Settled (n : Nat) (w : World) : Prop := w.aborted.isSome = true ∨ ∀ r ∈ w.pending, r.offer ≠ n

def RepliedOnce (w : World) : Prop :=
  (∀ n < w.offers, repliesTo n w ≤ 1 ∧ (Settled n w → repliesTo n w = 1)) ∧ acceptsRun w.context ≤ 1

/- Some offer has no reply yet. -/
def Open (w : World) : Prop := ∃ n < w.offers, repliesTo n w = 0

/- An offer finds the factory, a connection where AddTrack succeeds, and the observer
for the track of a device. No CreateAnswer fails, and one succeeds only while there is
a connection and no offer has been accepted. While an offer is open a candidate finds
a connection, and a remote stream the observer. -/
def AnswersOnce (lib : Library) (w : World) : Event → Prop
  | .offer _ _ x => w.call.pcFactory = true ∧
      (x.addTrack = true → x.connection = true ∧ (x.device.isSome = true → w.call.observer = true))
  | .answerFailed _ => False
  | .answerCreated _ _ => w.call.pc.isSome = true ∧ ∀ r ∈ w.replies, r.accepted = false
  | .message _ msg => Open w → (readCandidate lib msg).isSome = true → w.call.pc.isSome = true
  | .stream stream added => Open w → added = true → stream.videoTracks ≠ [] → w.call.observer = true
  | _ => True

def isAcceptClosure : CallContext.Closure → Bool
  | .operation _ _ op => isAccept op
  | _ => false

/- The accepted answers that have run and those that are still queued. -/
def accepts (c : CallContext.World) : Nat := acceptsRun c + c.queue.countP isAcceptClosure

theorem executeAccepts {c : CallContext.Closure} {w u : CallContext.World} (ok : CallContext.execute c w = some u) :
    acceptsRun u ≤ acceptsRun w + if isAcceptClosure c then 1 else 0 := by
  cases c with
  | invite offer =>
    cases Option.some.inj ok
    split <;> exact Nat.le_add_right _ _
  | operation t h op =>
    simp only [CallContext.execute] at ok
    split at ok
    · split at ok <;> try contradiction
      cases Option.some.inj ok
      simp only [acceptsRun,CallContext.callSession,List.countP_append,List.countP_singleton]
      exact Nat.le_refl _
    · cases Option.some.inj ok
      exact Nat.le_add_right _ _
  | endCall h =>
    cases Option.some.inj ok
    have kept := (CallContext.endNowUntouched h w).2.2.2
    simp only [acceptsRun,kept]
    exact Nat.le_add_right _ _
  | getLocalSdp =>
    cases Option.some.inj ok
    exact Nat.le_add_right _ _

theorem dispatchAccepts {t : CallContext.Thread} {c : CallContext.Closure} {w u : CallContext.World}
    (ok : CallContext.dispatch t c w = some u) : accepts u ≤ accepts w + if isAcceptClosure c then 1 else 0 := by
  cases t with
  | dum =>
    have ran : CallContext.execute c w = some u := ok
    have applied := executeAccepts ran
    unfold accepts
    rw [(CallContext.executeUntouched ran).2.2]
    omega
  | app =>
    cases Option.some.inj ok
    simp only [accepts,acceptsRun,CallContext.post,List.countP_append,List.countP_singleton]
    omega

theorem contextAccepts {w u : CallContext.World} {e : CallContext.Event} (other : fromCall e = false)
    (ok : CallContext.step w e = some u) : accepts u ≤ accepts w := by
  cases e with
  | invite t offer => exact dispatchAccepts (CallContext.inviteRuns ok)
  | issue t op => cases other
  | getLocalSdp t => exact dispatchAccepts (CallContext.getLocalSdpRuns ok)
  | destroy t =>
    have ran := (CallContext.destroyRuns ok).2
    cases t with
    | app => exact dispatchAccepts (t := .app) (c := .endCall w.h) (w := {w with object := .ending}) ran
    | dum =>
      simp only [CallContext.destroy,bind,Option.bind_eq_some_iff,pure,Option.some.injEq] at ran
      obtain ⟨v,ended,rfl⟩ := ran
      have below := dispatchAccepts ended
      exact below
  | execute =>
    obtain ⟨c,rest,queue,ran⟩ := CallContext.executeRuns ok
    have applied := executeAccepts ran
    have before : acceptsRun {w with queue := rest} = acceptsRun w := rfl
    unfold accepts
    rw [(CallContext.executeUntouched ran).2.2,queue,List.countP_cons]
    dsimp only
    omega
  | terminated s i final =>
    obtain ⟨_,rfl⟩ := CallContext.whenExact ok
    cases final <;> exact Nat.le_refl _
  | _ =>
    obtain ⟨_,rfl⟩ := CallContext.whenExact ok
    exact Nat.le_refl _

/-! No closure of the Call faults. -/

def Sound : CallContext.Closure → Prop
  | .operation _ _ op => ∃ calls, op.calls = .ok calls
  | .invite _ | .endCall _ | .getLocalSdp => True

theorem soundRuns {c : CallContext.Closure} {w : CallContext.World} (sound : Sound c) :
    ∃ u, CallContext.execute c w = some u := by
  cases c with
  | operation t h op =>
    obtain ⟨calls,made⟩ := sound
    simp only [CallContext.execute,made]
    split <;> exact ⟨_,rfl⟩
  | _ => exact ⟨_,rfl⟩

theorem dispatchQueue {t : CallContext.Thread} {c : CallContext.Closure} {w u : CallContext.World}
    (ok : CallContext.dispatch t c w = some u) (sound : Sound c) : ∀ x ∈ u.queue, x ∈ w.queue ∨ Sound x := by
  intro x member
  cases t with
  | dum =>
    rw [(CallContext.executeUntouched ok).2.2] at member
    exact .inl member
  | app =>
    cases Option.some.inj ok
    rcases List.mem_append.mp member with old | new
    · exact .inl old
    · exact .inr (List.mem_singleton.mp new ▸ sound)

theorem contextQueue {w u : CallContext.World} {e : CallContext.Event} (other : fromCall e = false)
    (ok : CallContext.step w e = some u) : ∀ x ∈ u.queue, x ∈ w.queue ∨ Sound x := by
  cases e with
  | invite t offer => exact dispatchQueue (CallContext.inviteRuns ok) trivial
  | issue t op => cases other
  | getLocalSdp t => exact dispatchQueue (CallContext.getLocalSdpRuns ok) trivial
  | destroy t =>
    have ran := (CallContext.destroyRuns ok).2
    cases t with
    | app => exact dispatchQueue (t := .app) (c := .endCall w.h) (w := {w with object := .ending}) ran trivial
    | dum =>
      simp only [CallContext.destroy,bind,Option.bind_eq_some_iff,pure,Option.some.injEq] at ran
      obtain ⟨v,ended,rfl⟩ := ran
      have kept := dispatchQueue ended trivial
      exact kept
  | execute =>
    obtain ⟨c,rest,queue,ran⟩ := CallContext.executeRuns ok
    intro x member
    rw [(CallContext.executeUntouched ran).2.2] at member
    rw [queue]
    exact .inl (List.mem_cons_of_mem c member)
  | terminated s i final =>
    obtain ⟨_,rfl⟩ := CallContext.whenExact ok
    cases final <;> exact fun _ member => .inl member
  | _ =>
    obtain ⟨_,rfl⟩ := CallContext.whenExact ok
    exact fun _ member => .inl member

/-! A Call that lives issues each of its operations; only Accept adds an accept. -/

structure Kept (c d : CallContext.World) (n : Nat) : Prop where
  accepts : accepts d ≤ accepts c + n
  role : d.role = c.role
  queue : ∀ x ∈ d.queue, x ∈ c.queue ∨ Sound x

/- A callee's operation is queued, or runs at once. -/
theorem issueKeeps {t : CallContext.Thread} {op : CallContext.Operation} {w : World}
    (alive : w.context.object = .alive) (role : w.context.role = .callee) (sound : ∃ calls, op.calls = .ok calls) :
    ∃ c, issue t op w = {w with context := c} ∧ Kept w.context c (if isAccept op then 1 else 0) := by
  have offered : op.offered w.context.role = true := by rw [role]; cases op <;> rfl
  have taken : ∃ c, CallContext.step w.context (.issue t op) = some c := by
    simp only [CallContext.step]
    rw [if_pos ⟨alive,offered⟩]
    cases t with
    | app => exact ⟨_,rfl⟩
    | dum => exact soundRuns (c := .operation .dum w.context.h op) sound
  obtain ⟨c,ran⟩ := taken
  have dispatched := CallContext.issueRuns ran
  have queue := dispatchQueue dispatched sound
  exact ⟨c,by rw [issue,ran],dispatchAccepts dispatched,(CallContext.dispatchUntouched dispatched).1.role,queue⟩

/- A step of the context that is not the Call's own. -/
theorem contextKeeps {e : CallContext.Event} {w u : World} (queued : ∀ x ∈ w.context.queue, Sound x)
    (other : fromCall e = false) (ok : contextStep e w = some u) :
    ∃ c, u = {w with context := c} ∧ Kept w.context c 0 := by
  unfold contextStep at ok
  split at ok
  · rename_i c ran
    exact ⟨c,(Option.some.inj ok).symm,contextAccepts other ran,(CallContext.stepSessions ran).1,contextQueue other ran⟩
  · rename_i stuck
    split at ok <;> try contradiction
    rename_i c rest queue
    obtain ⟨v,ran⟩ := @soundRuns c {w.context with queue := rest} (queued c (by rw [queue]; exact List.mem_cons_self))
    simp only [CallContext.step,queue] at stuck
    cases stuck.symm.trans ran

theorem routeAnnounced {t : CallContext.Thread} {n : Nat} {es fs : List Effect} {w : World}
    (announces : Announces es) : routeAll t n (es ++ fs) w = routeAll t n fs w := by
  induction es with
  | nil => rfl
  | cons e es ih =>
    obtain ⟨_,_,_,same⟩ := announces e List.mem_cons_self
    subst same
    exact ih (fun a member => announces a (List.mem_cons_of_mem _ member))

def awaited (n : Nat) (w : World) : Nat := w.pending.count ⟨n,.createAnswer⟩

def accepted (w : World) : Nat := w.replies.countP (·.accepted)

/- An offer has its reply or a request for an answer, never both; what the context
runs or will run of Accept was called; an abort finds no offer open. -/
structure Balanced (w : World) : Prop where
  each : ∀ n < w.offers, repliesTo n w + awaited n w = 1
  pending : ∀ r ∈ w.pending, r.offer < w.offers
  replies : ∀ r ∈ w.replies, r.offer < w.offers
  once : accepted w ≤ 1
  called : accepts w.context ≤ accepted w
  caller : w.call.caller = false
  callee : w.call.callee = true
  role : w.context.role = .callee
  queued : ∀ x ∈ w.context.queue, Sound x
  closed : w.aborted.isSome = true → ¬ Open w

theorem repliedOf {w : World} (h : Balanced w) : RepliedOnce w := by
  refine ⟨?_,?_⟩
  · intro n offered
    have balance := h.each n offered
    refine ⟨by omega,?_⟩
    intro settled
    rcases settled with aborted | settled
    · have replied : repliesTo n w ≠ 0 := fun none => h.closed aborted ⟨n,offered,none⟩
      omega
    · have unanswered : awaited n w = 0 := by
        apply List.count_eq_zero.mpr
        intro member
        exact settled _ member rfl
      omega
  · have called := h.called
    have once := h.once
    unfold accepts at called
    omega

theorem keptQueued {n : Nat} {w : World} {c : CallContext.World} (h : Balanced w) (kept : Kept w.context c n) :
    ∀ x ∈ c.queue, Sound x := by
  intro x member
  rcases kept.queue x member with old | sound
  · exact h.queued x old
  · exact sound

theorem balancedContext {w : World} {c : CallContext.World} (h : Balanced w) (kept : Kept w.context c 0) :
    Balanced {w with context := c} :=
  ⟨h.each,h.pending,h.replies,h.once,Nat.le_trans kept.accepts h.called,h.caller,h.callee,kept.role.trans h.role,
    keptQueued h kept,h.closed⟩

theorem balancedCall {w : World} {c : Call} (h : Balanced w) (caller : c.caller = w.call.caller)
    (callee : c.callee = w.call.callee) : Balanced {w with call := c} :=
  ⟨h.each,h.pending,h.replies,h.once,h.called,caller.trans h.caller,callee.trans h.callee,h.role,h.queued,h.closed⟩

theorem notAborted {w u : World} (running : w.aborted = none) (same : u.aborted = w.aborted) :
    u.aborted.isSome = true → ¬ Open u := by
  intro aborted
  rw [same,running] at aborted
  cases aborted

/- A callback that finds no offer open may abort. -/
theorem balancedAbort {w : World} {a : Abort} (h : Balanced w) (replied : ¬ Open w) : Balanced (w.abort a) :=
  ⟨h.each,h.pending,h.replies,h.once,h.called,h.caller,h.callee,h.role,h.queued,fun _ => replied⟩

/- The offer `n` is new: nothing refers to it yet. -/
theorem freshOffer {w : World} (h : Balanced w) : repliesTo w.offers w = 0 ∧ awaited w.offers w = 0 := by
  refine ⟨?_,?_⟩
  · apply List.countP_eq_zero.mpr
    intro r member same
    have bound := h.replies r member
    simp only [beq_iff_eq] at same
    omega
  · apply List.count_eq_zero.mpr
    intro member
    exact Nat.lt_irrefl _ (h.pending _ member)

/- One reply, or one request for an answer, is added; each offer's own account
changes by it. -/
theorem repliesToAppend (m n : Nat) (answer : Bool) (w u : World) (same : u.replies = w.replies ++ [⟨n,answer⟩]) :
    repliesTo m u = repliesTo m w + if n = m then 1 else 0 := by
  simp [repliesTo,same,List.countP_append,List.countP_singleton]

theorem awaitedAppend (m n : Nat) (w u : World)
    (same : u.pending = w.pending ++ [⟨n,.setDescription⟩] ++ [⟨n,.createAnswer⟩]) :
    awaited m u = awaited m w + if n = m then 1 else 0 := by
  simp [awaited,same,List.count_append,List.count_singleton]

theorem offeredOnce {w u : World} (h : Balanced w) (offers : u.offers = w.offers+1)
    (account : ∀ n, repliesTo n u + awaited n u = repliesTo n w + awaited n w + if w.offers = n then 1 else 0) :
    ∀ n < u.offers, repliesTo n u + awaited n u = 1 := by
  intro n bound
  obtain ⟨noReply,noRequest⟩ := freshOffer h
  have change := account n
  by_cases same : w.offers = n
  · subst same
    rw [if_pos rfl] at change
    omega
  · have before := h.each n (by omega)
    rw [if_neg same] at change
    omega

section
variable {lib : Library} {w : World} {c : Call} (h : Balanced w) (running : w.aborted = none)
  (caller : c.caller = w.call.caller) (callee : c.callee = w.call.callee)
include h running caller callee

/- The guard of OnOffer rejects the new offer. -/
theorem rejectedBalanced {code : Int} (alive : w.context.object = .alive) :
    Balanced (route .dum w.offers {w with offers := w.offers+1, call := c} (.reject code)) := by
  obtain ⟨d,issued,kept⟩ := @issueKeeps .dum (.reject code) {w with offers := w.offers+1, call := c} alive h.role
    ⟨_,rfl⟩
  rw [route,issued]
  have called : accepts d ≤ accepted w := Nat.le_trans kept.accepts h.called
  refine ⟨offeredOnce h rfl ?_,?_,?_,?_,?_,caller.trans h.caller,callee.trans h.callee,kept.role.trans h.role,
    keptQueued h kept,?_⟩
  · intro n
    rw [repliesToAppend n w.offers false w _ rfl]
    exact Nat.add_right_comm _ _ _
  · intro r member
    exact Nat.lt_succ_of_lt (h.pending r member)
  · intro r member
    rcases List.mem_append.mp member with old | new
    · exact Nat.lt_succ_of_lt (h.replies r old)
    · cases List.mem_singleton.mp new
      exact Nat.lt_succ_self _
  · simpa [accepted,reply] using h.once
  · simpa [accepted,reply] using called
  · exact notAborted (u := reply _ _) running rfl

/- OnOffer hands the new offer over and asks for its answer. -/
theorem requestedBalanced : Balanced {w with
    offers := w.offers+1
    call := c
    pending := w.pending ++ [⟨w.offers,.setDescription⟩] ++ [⟨w.offers,.createAnswer⟩]} := by
  refine ⟨offeredOnce h rfl ?_,?_,?_,h.once,h.called,caller.trans h.caller,callee.trans h.callee,h.role,
    h.queued,?_⟩
  · intro n
    rw [awaitedAppend n w.offers w _ rfl]
    exact (Nat.add_assoc _ _ _).symm
  · intro r member
    simp only [List.append_assoc,List.mem_append,List.mem_singleton] at member
    rcases member with old | new | new
    · exact Nat.lt_succ_of_lt (h.pending r old)
    · rw [new]; exact Nat.lt_succ_self _
    · rw [new]; exact Nat.lt_succ_self _
  · intro r member
    exact Nat.lt_succ_of_lt (h.replies r member)
  · exact notAborted running rfl

end

theorem offerBalanced {lib : Library} {w : World} {text : Bytes} {x : Creation} (h : Balanced w)
    (running : w.aborted = none) (alive : w.context.object = .alive) (made : lacks x w.call = none) :
    Balanced (perform .dum w.offers (onOffer lib x text) {w with offers := w.offers+1}) := by
  obtain ⟨c,named,empty,caller,callee⟩ : ∃ c : Call, {w.call with outbox := []} = c ∧ c.outbox = [] ∧
      c.caller = w.call.caller ∧ c.callee = w.call.callee := ⟨_,rfl,rfl,rfl,rfl⟩
  have present : lacks x c = none := by rw [← named]; exact made
  have roles := withStreamKeeps x c
  have outbox : (afterCreation x c).outbox = announced x := by rw [creationOutbox,empty,List.nil_append]
  have announces : Announces (announced x) := fun _ member => announcedOnly member
  simp only [perform,named,offerRuns,present]
  cases offerTaken lib x text with
  | none =>
    simp only [callee.trans h.callee,if_true,outbox,routeAnnounced announces]
    exact rejectedBalanced (c := {afterCreation x c with outbox := []}) h running
      (roles.2.1.trans caller) (roles.1.trans callee) alive
  | some desc =>
    simp only [answering,outbox,routeAnnounced announces]
    exact requestedBalanced (c := {answering desc x c with outbox := []}) h running
      (roles.2.1.trans caller) (roles.1.trans callee)

/- A resolved request for an answer is one less, for its own offer. -/
theorem awaitedResolved {w : World} {n : Nat} (requested : ⟨n,.createAnswer⟩ ∈ w.pending) (m : Nat) :
    awaited m (w.resolve ⟨n,.createAnswer⟩) + (if n = m then 1 else 0) = awaited m w := by
  have one : 0 < w.pending.count ⟨n,.createAnswer⟩ := List.count_pos_iff.mpr requested
  unfold awaited World.resolve
  by_cases same : n = m
  · subst same
    rw [if_pos rfl,List.count_erase_self]
    omega
  · have apart : (⟨m,.createAnswer⟩ : Request) ≠ ⟨n,.createAnswer⟩ := by
      intro eq
      cases eq
      exact same rfl
    rw [if_neg same,List.count_erase_of_ne apart]
    omega

theorem answeredOnce {w u : World} {n : Nat} (h : Balanced w) (requested : ⟨n,.createAnswer⟩ ∈ w.pending)
    (offers : u.offers = w.offers) (replies : u.replies = w.replies ++ [⟨n,true⟩])
    (pending : u.pending = w.pending.erase ⟨n,.createAnswer⟩ ++ [⟨n,.setDescription⟩]) :
    (∀ m < u.offers, repliesTo m u + awaited m u = 1) ∧ (∀ r ∈ u.pending, r.offer < u.offers) ∧
      ∀ r ∈ u.replies, r.offer < u.offers := by
  have offered : n < w.offers := h.pending _ requested
  rw [offers,replies,pending]
  refine ⟨?_,?_,?_⟩
  · intro m bound
    have balance := h.each m bound
    have request := awaitedResolved requested m
    have grown := repliesToAppend m n true w u replies
    have kept : awaited m u = awaited m (w.resolve ⟨n,.createAnswer⟩) := by
      simp [awaited,World.resolve,pending,List.count_append]
    omega
  · intro r member
    rcases List.mem_append.mp member with old | new
    · exact h.pending r (List.mem_of_mem_erase old)
    · cases List.mem_singleton.mp new
      exact offered
  · intro r member
    rcases List.mem_append.mp member with old | new
    · exact h.replies r old
    · cases List.mem_singleton.mp new
      exact offered

/- CreateAnswer succeeds for `n`: its request turns into the one accepted reply. -/
theorem answerBalanced {w : World} {n : Nat} {desc : Description} (h : Balanced w) (running : w.aborted = none)
    (alive : w.context.object = .alive) (requested : ⟨n,.createAnswer⟩ ∈ w.pending)
    (held : w.call.pc.isSome = true) (first : ∀ r ∈ w.replies, r.accepted = false) :
    Balanced (perform .app n (onCreateSessionDescriptionSuccess desc) (w.resolve ⟨n,.createAnswer⟩)) := by
  have unaccepted : accepted w = 0 := by
    apply List.countP_eq_zero.mpr
    intro r member
    rw [first r member]
    exact Bool.false_ne_true
  obtain ⟨pc,held⟩ := Option.isSome_iff_exists.mp held
  unfold perform
  rw [describedRuns]
  simp only [World.resolve,h.caller,h.callee,held,if_true]
  change Balanced (reply ⟨n,true⟩ (issue .app (.accept desc.sdp 200) {w with
    pending := w.pending.erase ⟨n,.createAnswer⟩ ++ [⟨n,.setDescription⟩]
    call := {w.call with caller := false, callee := true, pc := some (pc.setLocal (some desc)), outbox := []}}))
  obtain ⟨d,issued,kept⟩ := @issueKeeps .app (.accept desc.sdp 200) {w with
    pending := w.pending.erase ⟨n,.createAnswer⟩ ++ [⟨n,.setDescription⟩]
    call := {w.call with caller := false, callee := true, pc := some (pc.setLocal (some desc)), outbox := []}}
    alive h.role ⟨_,rfl⟩
  rw [issued]
  have called : accepts d ≤ accepted w + 1 := Nat.le_trans kept.accepts (Nat.add_le_add_right h.called 1)
  obtain ⟨each,pending,replies⟩ := answeredOnce (u := {w with
    replies := w.replies ++ [⟨n,true⟩]
    pending := w.pending.erase ⟨n,.createAnswer⟩ ++ [⟨n,.setDescription⟩]}) h requested rfl rfl rfl
  refine ⟨each,pending,replies,?_,?_,rfl,rfl,kept.role.trans h.role,
    keptQueued h kept,?_⟩
  · simp only [accepted,reply,List.countP_append,List.countP_singleton] at unaccepted ⊢
    simp [unaccepted]
  · simp only [accepted,reply,List.countP_append,List.countP_singleton,if_true] at called ⊢
    exact called
  · exact notAborted (u := reply _ _) running rfl

theorem resolvedBalanced {w : World} {n : Nat} (h : Balanced w) : Balanced (w.resolve ⟨n,.setDescription⟩) := by
  refine ⟨?_,fun r member => h.pending r (List.mem_of_mem_erase member),h.replies,h.once,h.called,h.caller,h.callee,
    h.role,h.queued,h.closed⟩
  intro m bound
  have apart : (⟨m,.createAnswer⟩ : Request) ≠ ⟨n,.setDescription⟩ := by
    intro eq
    cases eq
  have same : awaited m (w.resolve ⟨n,.setDescription⟩) = awaited m w := List.count_erase_of_ne apart
  rw [same]
  exact h.each m bound

section
variable {lib : Library} {w : World} (h : Balanced w) (alive : w.context.object = .alive)
include h alive

theorem issuedBalanced {t : CallContext.Thread} {op : CallContext.Operation} {c : Call} (caller : c.caller = false)
    (callee : c.callee = true) (other : isAccept op = false) (sound : ∃ calls, op.calls = .ok calls) :
    Balanced (issue t op {w with call := c}) := by
  obtain ⟨d,issued,kept⟩ := @issueKeeps t op {w with call := c} alive h.role sound
  rw [issued]
  rw [other] at kept
  exact balancedContext (w := {w with call := c})
    (balancedCall h (caller.trans h.caller.symm) (callee.trans h.callee.symm)) kept

theorem messageBalanced {msg : Contents}
    (supplied : Open w → (readCandidate lib msg).isSome = true → w.call.pc.isSome = true) :
    Balanced (perform .dum 0 (onMessage lib msg) w) := by
  have named : ({w.call with outbox := []} : Call).holds .call = true := by
    simp only [Call.holds,h.callee,Bool.or_true]
  unfold perform
  rw [messageRuns]
  cases read : readCandidate lib msg with
  | none =>
    simp only [named,if_true,List.nil_append]
    exact issuedBalanced h alive h.caller h.callee rfl ⟨_,rfl⟩
  | some candidate =>
    cases held : w.call.pc with
    | none =>
      refine balancedAbort h ?_
      intro waiting
      rw [read,held] at supplied
      cases supplied waiting rfl
    | some pc =>
      simp only [named,if_true]
      cases lib.addIceCandidate pc candidate with
      | true => exact issuedBalanced h alive h.caller h.callee rfl ⟨_,rfl⟩
      | false => exact issuedBalanced h alive h.caller h.callee rfl ⟨_,rfl⟩

theorem candidateBalanced {candidate : Candidate} : Balanced (perform .app 0 (onIceCandidate lib candidate) w) := by
  unfold perform
  rw [candidateRuns]
  simp only [h.caller,h.callee,ifSetEmit,if_true,Bool.false_eq_true,if_false,List.nil_append]
  exact issuedBalanced h alive rfl rfl rfl ⟨_,rfl⟩

end

theorem streamBalanced {w : World} {stream : Stream} {added : Bool} (h : Balanced w)
    (supplied : Open w → added = true → stream.videoTracks ≠ [] → w.call.observer = true) :
    Balanced (perform .app 0 (streamChanged stream added) w) := by
  unfold perform
  cases ran : streamChanged stream added {w.call with outbox := []} with
  | ok r =>
    cases added with
    | true =>
      obtain ⟨caller,callee,_,_,es,outbox,announces⟩ := addStreamsExact ran
      have outbox : r.2.outbox = es ++ [] := by simpa using outbox
      simp only [outbox,routeAnnounced announces]
      exact balancedCall h caller callee
    | false =>
      obtain ⟨caller,callee,_,_,outbox⟩ := removeStreamExact ran
      simp only [outbox]
      exact balancedCall h caller callee
  | error m =>
    refine balancedAbort h ?_
    intro waiting
    cases added with
    | true =>
      have returned : ∃ d, onAddStream stream {w.call with outbox := []} = .ok (⟨⟩,d) := by
        by_cases empty : stream.videoTracks = []
        · exact ⟨_,by rw [onAddStream,empty]; rfl⟩
        · exact addStreamsReturn (supplied waiting rfl empty)
      obtain ⟨d,returned⟩ := returned
      cases returned.symm.trans ran
    | false => cases ran

/- A notification without a body leaves the Call as it is. -/
theorem silentBalanced {n : Nat} {f : CallM Unit} {w : World} (h : Balanced w) (empty : f = pure ()) :
    Balanced (perform .app n f w) := by
  subst empty
  exact balancedCall h rfl rfl

theorem deliversAlive {w : World} {s : CallContext.SessionId} (there : w.delivers s = true) :
    w.context.object = .alive := by
  simp only [World.delivers,World.alive,Bool.and_eq_true,beq_iff_eq] at there
  exact there.1.1

theorem notifiedExact {r : Request} {f : CallM Unit} {w u : World} (ok : notified r f w = some u) :
    w.context.object = .alive ∧ r ∈ w.pending ∧ u = perform .app r.offer f (w.resolve r) := by
  unfold notified at ok
  split at ok <;> try contradiction
  rename_i ready
  exact ⟨by simpa [World.alive] using ready.1,ready.2,(Option.some.inj ok).symm⟩

theorem keepsBalanced (lib : Library) : Keeps (step lib) (AnswersOnce lib) Balanced := by
  intro w e u h once ok
  unfold step at ok
  split at ok <;> try contradiction
  rename_i running
  cases e with
  | setObserver observer =>
    cases Option.some.inj ok
    exact balancedCall h rfl rfl
  | offer s text x =>
    simp only [act] at ok
    split at ok <;> try contradiction
    rename_i there
    cases Option.some.inj ok
    exact offerBalanced h running (deliversAlive there) (lacksIff.mpr once)
  | answerCreated n desc =>
    obtain ⟨alive,requested,rfl⟩ := notifiedExact ok
    exact answerBalanced h running alive requested once.1 once.2
  | answerFailed n => exact once.elim
  | descriptionSet n remote success =>
    obtain ⟨alive,requested,rfl⟩ := notifiedExact ok
    exact silentBalanced (resolvedBalanced h) (by cases success <;> rfl)
  | message s msg =>
    simp only [act] at ok
    split at ok <;> try contradiction
    rename_i there
    cases Option.some.inj ok
    exact messageBalanced h (deliversAlive there) once
  | iceCandidate candidate =>
    simp only [act] at ok
    split at ok <;> try contradiction
    rename_i alive
    cases Option.some.inj ok
    exact candidateBalanced h (by simpa [World.alive] using alive)
  | stream stream added =>
    simp only [act] at ok
    split at ok <;> try contradiction
    cases Option.some.inj ok
    exact streamBalanced h once
  | context e =>
    simp only [act] at ok
    split at ok <;> try contradiction
    rename_i other
    obtain ⟨c,rfl,kept⟩ := contextKeeps h.queued (by simpa using other) ok
    exact balancedContext h kept

theorem offersRepliedOnce (lib : Library) (pcFactory : Bool) (events : List Event)
    (once : Meets (step lib) (AnswersOnce lib) (World.start pcFactory) events) :
    Visits (step lib) RepliedOnce (World.start pcFactory) events := by
  have start : Balanced (World.start pcFactory) := by
    refine ⟨?_,?_,?_,?_,?_,rfl,rfl,rfl,?_,?_⟩ <;>
      simp [World.start,accepted,accepts,acceptsRun,CallContext.World.initial]
  exact visitsMono (fun _ => repliedOf) (visitsOfKeeps (keepsBalanced lib) start once)

/-! A call that is established by its first offer, and what can go wrong after it. -/

/- An INVITE arrives, the Call registers for it, its session is announced. -/
def invited : List Event :=
  [.setObserver true,.context (.createAppDialogSet none),.context (.setCallback true),.context .dialogSetCreated,
    .context (.newSession 0 none)]

def answered (offer answer : Bytes) : List Event :=
  [.offer 0 offer created,.descriptionSet 0 true true,.answerCreated 0 ⟨.answer,answer⟩,.descriptionSet 0 false true,
    .context .execute]

def ringing : World := {World.start true with
  call := {Call.new true with callee := true, observer := true}
  context := ⟨.callee,some 0,none,true,.alive,[],[⟨0,none,.present,false⟩],[⟨0,0,false,false,none⟩],1,
    ⟨[],[],[],[],[],[.onInit],false⟩⟩}

theorem invitedRuns (lib : Library) : run (step lib) (World.start true) invited = some ringing := rfl

section
variable {lib : Library} {w : World} {offer : Bytes} {s : CallContext.SessionId} (running : w.aborted = none)
  (there : w.delivers s = true) (factory : w.call.pcFactory = true)
  (read : lib.createSessionDescription .offer offer = some ⟨.offer,offer⟩)
include running there factory read

/- An offer that parses is handed over, and its answer asked for. -/
theorem offerTakes : step lib w (.offer s offer created) = some {w with
    offers := w.offers+1
    call := {w.call with pc := some ((PeerConnection.new w.call.pc).setRemote (some ⟨.offer,offer⟩)), outbox := []}
    pending := w.pending ++ [⟨w.offers,.setDescription⟩] ++ [⟨w.offers,.createAnswer⟩]} := by
  have present : lacks created {w.call with outbox := []} = none := lacksIff.mpr ⟨factory,by simp [created]⟩
  have taken : offerTaken lib created offer = some ⟨.offer,offer⟩ := read
  simp only [step,running,if_true,act,there,perform,offerRuns,present,taken]
  rfl

end

/- The INVITE's offer was answered; `established` is after its Accept has run. -/
def asked (offer : Bytes) : World := {ringing with
  offers := 1
  call := {ringing.call with pc := some ((PeerConnection.new none).setRemote (some ⟨.offer,offer⟩))}
  pending := [⟨0,.setDescription⟩,⟨0,.createAnswer⟩]}

def established (offer answer : Bytes) : World := {asked offer with
  call := {ringing.call with
    pc := some (((PeerConnection.new none).setRemote (some ⟨.offer,offer⟩)).setLocal (some ⟨.answer,answer⟩))}
  pending := []
  replies := [⟨0,true⟩]
  context := CallContext.callSession .app 0 (.accept answer 200) [.provideAnswer answer,.accept 200]
    {ringing.context with log := {ringing.context.log with issued := [⟨.app,some 0,.accept answer 200⟩]}}}

section
variable {lib : Library} {offer : Bytes} (answer : Bytes)
  (read : lib.createSessionDescription .offer offer = some ⟨.offer,offer⟩)
include read

theorem askedNext : step lib ringing (.offer 0 offer created) = some (asked offer) :=
  offerTakes (w := ringing) rfl rfl rfl read

theorem answeredRuns : run (step lib) ringing (answered offer answer) = some (established offer answer) := by
  have rest : run (step lib) (asked offer) [.descriptionSet 0 true true,.answerCreated 0 ⟨.answer,answer⟩,
      .descriptionSet 0 false true,.context .execute] = some (established offer answer) := rfl
  rw [answered,run,askedNext read]
  exact rest

theorem answeredMeets : Meets (step lib) (AnswersOnce lib) ringing (answered offer answer) := by
  rw [answered,Meets,askedNext read]
  exact ⟨⟨rfl,by simp [created]⟩,trivial,⟨rfl,fun _ none => by cases none⟩,trivial,trivial,trivial⟩

end

theorem answeredRepliedOnce :
    Visits (step textLibrary) RepliedOnce (World.start true) (invited ++ answered offerText answerText) := by
  have meets : Meets (step textLibrary) (AnswersOnce textLibrary) (World.start true) invited :=
    ⟨trivial,trivial,trivial,trivial,trivial,trivial⟩
  apply offersRepliedOnce
  exact (meetsAppend (invitedRuns _)).mpr ⟨meets,answeredMeets answerText (textsParse (.inl rfl) .offer)⟩

/- CreateAnswer fails, or CreatePeerConnection gives null: the offer has no reply. A
re-offer of the established call gets a second answer: provideAnswer and accept run
twice. -/
def answerFails (offer : Bytes) : List Event := [.offer 0 offer created,.descriptionSet 0 true true,.answerFailed 0]

def unconnected (offer : Bytes) : List Event := [.offer 0 offer {created with connection := false}]

def offeredAgain (offer answer : Bytes) : List Event :=
  answered offer answer ++ [.offer 0 offer created,.answerCreated 1 ⟨.answer,answer⟩,.context .execute]

theorem answerFailsRuns {lib : Library} {offer : Bytes}
    (read : lib.createSessionDescription .offer offer = some ⟨.offer,offer⟩) :
    run (step lib) ringing (answerFails offer) = some {asked offer with pending := []} := by
  have rest : run (step lib) (asked offer) [.descriptionSet 0 true true,.answerFailed 0] =
    some {asked offer with pending := []} := rfl
  rw [answerFails,run,askedNext read]
  exact rest

theorem offeredAgainRuns {lib : Library} {offer : Bytes} (answer : Bytes)
    (read : lib.createSessionDescription .offer offer = some ⟨.offer,offer⟩) :
    ∃ w, run (step lib) ringing (offeredAgain offer answer) = some w ∧ acceptsRun w.context = 2 := by
  have again := offerTakes (w := established offer answer) (s := 0) rfl rfl rfl read
  have rest : ∃ w, run (step lib) (established offer answer) [.offer 0 offer created,
      .answerCreated 1 ⟨.answer,answer⟩,.context .execute] = some w ∧ acceptsRun w.context = 2 := by
    rw [run,again]
    exact ⟨_,rfl,rfl⟩
  obtain ⟨w,ran,twice⟩ := rest
  exact ⟨w,runAppend (answeredRuns answer read) ran,twice⟩

theorem unconnectedRuns (lib : Library) (offer : Bytes) : run (step lib) ringing (unconnected offer) =
    some {ringing with offers := 1, aborted := some (.missing .pc)} := rfl

theorem offersRepliedOtherwise :
    ¬ Visits (step textLibrary) RepliedOnce (World.start true) (invited ++ answerFails offerText) ∧
    ¬ Visits (step textLibrary) RepliedOnce (World.start true) (invited ++ unconnected offerText) ∧
    ¬ Visits (step textLibrary) RepliedOnce (World.start true) (invited ++ offeredAgain offerText answerText) := by
  have read := @textsParse offerText (.inl rfl) .offer
  refine ⟨?_,?_,?_⟩
  · intro visits
    have last := visitsLast visits (runAppend (invitedRuns _) (answerFailsRuns read))
    have replied := (last.1 0 Nat.one_pos).2 (.inr (by intro r member; cases member))
    cases replied
  · intro visits
    have last := visitsLast visits (runAppend (invitedRuns _) (unconnectedRuns _ _))
    have replied := (last.1 0 Nat.one_pos).2 (.inl rfl)
    cases replied
  · intro visits
    obtain ⟨w,ran,twice⟩ := offeredAgainRuns answerText read
    have last := visitsLast visits (runAppend (invitedRuns _) ran)
    exact absurd last.2 (by rw [twice]; decide)

end RtcCall.OfferReplies
