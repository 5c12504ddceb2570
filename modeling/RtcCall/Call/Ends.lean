import RtcCall.Lib.Runs
import RtcCall.Call.Descriptions

/-! The two ends of a call and what is in flight between them: the INVITE with the
offer, the 200 with the answer, one MESSAGE for each candidate, delivered in any
order. An abort of either process is recorded and ends the run. What a step does is
said once, by `Moved`. -/
namespace RtcCall.Ends
open WebRtc Media Descriptions

inductive Side where | caller | callee deriving DecidableEq, Repr

def Side.peer : Side → Side
  | .caller => .callee
  | .callee => .caller

inductive Packet where
  | invite (offer : Bytes)
  | ok (answer : Bytes)
  | message (dest : Side) (body : SipContents)
  deriving DecidableEq, Repr

structure Delivered where
  dest : Side
  body : SipContents
  deriving DecidableEq, Repr

structure Reply where
  side : Side
  accepted : Bool
  deriving DecidableEq, Repr

/- A null member that is dereferenced, or contents without a SIP body. -/
inductive Abort where
  | missing (m : Missing)
  | contents (f : Fault)
  deriving DecidableEq, Repr

/- `offers` and `answers` count the notifications still to come for CreateOffer and
CreateAnswer; `localSdp` is the caller's session's. `answered` says that the 200
has reached the caller. -/
structure World where
  caller : Call
  callee : Option Call
  offers : Nat
  answers : Nat
  localSdp : Option Bytes
  network : List Packet
  answered : Bool
  delivered : List Delivered
  replies : List Reply
  aborted : Option Abort
  deriving DecidableEq, Repr

def World.start : World := ⟨Call.new true,none,0,0,none,[],false,[],[],none⟩

def World.side (w : World) : Side → Option Call
  | .caller => some w.caller
  | .callee => w.callee

def World.put (w : World) (c : Call) : Side → World
  | .caller => {w with caller := c}
  | .callee => {w with callee := some c}

def World.abort (w : World) (a : Abort) : World := {w with aborted := some a}

def World.take (w : World) (p : Packet) : World := {w with network := w.network.erase p}

def send (p : Packet) (w : World) : World := {w with network := w.network ++ [p]}

/- An effect on the session or on the connection of the side. -/
def route (side : Side) (w : World) : Effect → World
  | .createOffer => {w with offers := w.offers+1}
  | .createAnswer => {w with answers := w.answers+1}
  | .invite (some offer) => send (.invite offer) {w with localSdp := some offer}
  | .accept answer _ => send (.ok answer) w
  | .message msg => match makeContents msg with
    | .ok (some body) => send (.message side.peer body) w
    | .ok none => w.abort (.contents .nullContents)
    | .error f => w.abort (.contents f)
  | .acceptNIT _ => {w with replies := w.replies ++ [⟨side,true⟩]}
  | .rejectNIT _ => {w with replies := w.replies ++ [⟨side,false⟩]}
  | .invite none | .reject _ | .onAddStream _ _ _ | .setLocalDescription _ | .setRemoteDescription _ => w

def routeAll (side : Side) (es : List Effect) (w : World) : World := es.foldl (route side) w

def perform {α : Type} (side : Side) (c : Call) (f : CallM α) (w : World) : World :=
  match f {c with outbox := []} with
  | .ok (_,d) => routeAll side d.outbox (w.put {d with outbox := []} side)
  | .error m => w.abort (.missing m)

/- OnCallee, onNewSession and onOffer, for the INVITE. -/
def calleeOffered (lib : Library) (x : Creation) (observer : Bool) (offer : Bytes) : CallM Unit := do
  let _ ← initCallee
  setObserver observer
  onOffer lib x offer

inductive Event where
  | initCaller (x : Creation) (observer : Bool)
  | offerCreated (desc : Description)
  | offerFailed
  | answerCreated (desc : Description)
  | answerFailed
  | iceCandidate (side : Side) (candidate : Candidate)
  | stream (side : Side) (stream : Stream) (added : Bool)
  | deliverInvite (offer : Bytes) (x : Creation) (observer : Bool)
  | deliverOk (answer : Bytes)
  | deliverMessage (dest : Side) (body : SipContents)
  deriving DecidableEq, Repr

/- WebRTC reports candidates of a connection that has its local description. -/
def gathers (c : Call) : Bool := c.pc.any (·.localDescription.isSome)

def streamChanged (stream : Stream) (added : Bool) : CallM Unit :=
  if added then onAddStream stream else onRemoveStream stream

def act (lib : Library) (w : World) : Event → Option World
  | .initCaller x observer =>
    if w.caller.pc = none then some (perform .caller w.caller (initCaller x observer) w) else none
  | .offerCreated desc =>
    if 0 < w.offers then
      some (perform .caller w.caller (onCreateSessionDescriptionSuccess desc) {w with offers := w.offers-1})
    else none
  | .offerFailed => if 0 < w.offers then some {w with offers := w.offers-1} else none
  | .answerCreated desc => match w.callee with
    | some c =>
      if 0 < w.answers then
        some (perform .callee c (onCreateSessionDescriptionSuccess desc) {w with answers := w.answers-1})
      else none
    | none => none
  | .answerFailed => if 0 < w.answers then some {w with answers := w.answers-1} else none
  | .iceCandidate side candidate => match w.side side with
    | some c => if gathers c then some (perform side c (onIceCandidate lib candidate) w) else none
    | none => none
  | .stream side stream added => match w.side side with
    | some c => if c.pc.isSome then some (perform side c (streamChanged stream added) w) else none
    | none => none
  | .deliverInvite offer x observer =>
    if .invite offer ∈ w.network ∧ w.callee = none then
      some (perform .callee (Call.new true) (calleeOffered lib x observer offer) (w.take (.invite offer)))
    else none
  | .deliverOk answer =>
    if .ok answer ∈ w.network then
      some (perform .caller w.caller (onAnswer lib w.localSdp answer) {w.take (.ok answer) with answered := true})
    else none
  | .deliverMessage dest body => match w.side dest with
    | some c =>
      if .message dest body ∈ w.network then
        some (perform dest c (onMessage lib (fromSip body))
          {w.take (.message dest body) with delivered := w.delivered ++ [⟨dest,body⟩]})
      else none
    | none => none

def step (lib : Library) (w : World) (e : Event) : Option World := if w.aborted = none then act lib w e else none

/- The callee's Call has its connection. -/
def Reached (w : World) : Prop := ∃ k, w.callee = some k ∧ k.pc.isSome = true

/- Everything but the INVITE is sent after the callee has its connection. -/
def Packet.later : Packet → Bool
  | .invite _ => false
  | .ok _ | .message _ _ => true

/- Which session each end holds. The caller is given its own when its connection asks for
an offer, and has a local description only after that. -/
structure Roles (w : World) : Prop where
  other : w.caller.callee = false
  asking : 0 < w.offers → w.caller.caller = true ∧ w.caller.pc.isSome = true
  inviting : w.localSdp.isSome = true → w.caller.caller = true ∧ w.caller.pc.isSome = true
  gathering : gathers w.caller = true → w.caller.caller = true ∧ Reached w
  callee : ∀ k, w.callee = some k → k.caller = false ∧ k.callee = true ∧ w.localSdp.isSome = true
  waiting : 0 < w.answers → Reached w
  sent : ∀ p ∈ w.network, w.localSdp.isSome = true ∧ (p.later = true → Reached w)

/- The MESSAGE body of a candidate. -/
def candidateSip (lib : Library) (candidate : Candidate) : SipContents :=
  ⟨Mime.json,lib.write (candidateBody candidate)⟩

/- A callback kept the roles and left this connection. -/
structure Becomes (c : Call) (pc : Option PeerConnection) (d : Call) : Prop where
  caller : d.caller = c.caller
  callee : d.callee = c.callee
  connection : d.pc = pc

/- Everything a step can do. -/
inductive Moved (lib : Library) (w : World) : Event → World → Prop where
  | asked {x observer c} (fresh : w.caller.pc = none) (caller : c.caller = true) (other : c.callee = false)
      (connection : c.pc = some (.new none)) :
      Moved lib w (.initCaller x observer) {w with caller := c, offers := w.offers+1}
  | unasked {x observer c} (fresh : w.caller.pc = none) (caller : c.caller = w.caller.caller)
      (other : c.callee = false) (connection : ∀ pc, c.pc = some pc → pc = .new none) :
      Moved lib w (.initCaller x observer) {w with caller := c}
  | uncalled {x observer m} : Moved lib w (.initCaller x observer) (w.abort (.missing m))
  | invited {desc d} (waiting : 0 < w.offers) (kept : Becomes w.caller w.caller.pc d) :
      Moved lib w (.offerCreated desc) (send (.invite desc.sdp)
        {w with caller := d, offers := w.offers-1, localSdp := some desc.sdp})
  | offerFailed (waiting : 0 < w.offers) : Moved lib w .offerFailed {w with offers := w.offers-1}
  | answered {desc k d pc} (there : w.callee = some k) (held : k.pc = some pc) (waiting : 0 < w.answers)
      (stored : Becomes k (some (pc.setLocal (some desc))) d) :
      Moved lib w (.answerCreated desc) (send (.ok desc.sdp) {w with callee := some d, answers := w.answers-1})
  | answerFailed (waiting : 0 < w.answers) : Moved lib w .answerFailed {w with answers := w.answers-1}
  | gathered {side candidate c d} (there : w.side side = some c) (gathering : gathers c = true)
      (kept : Becomes c c.pc d) : Moved lib w (.iceCandidate side candidate)
        (send (.message side.peer (candidateSip lib candidate)) (w.put d side))
  | streamed {side stream added c d} (there : w.side side = some c) (kept : Becomes c c.pc d) :
      Moved lib w (.stream side stream added) (w.put d side)
  | unseen {side stream added m} : Moved lib w (.stream side stream added) (w.abort (.missing m))
  | offered {offer x observer desc k} (inFlight : .invite offer ∈ w.network) (absent : w.callee = none)
      (read : lib.createSessionDescription .offer offer = some desc) (roles : k.caller = false ∧ k.callee = true)
      (connection : k.pc = some ((PeerConnection.new none).setRemote (some desc))) :
      Moved lib w (.deliverInvite offer x observer)
        {w.take (.invite offer) with callee := some k, answers := w.answers+1}
  | refused {offer x observer k} (inFlight : .invite offer ∈ w.network) (absent : w.callee = none)
      (roles : k.caller = false ∧ k.callee = true) (connection : ∀ pc, k.pc = some pc → pc = .new none) :
      Moved lib w (.deliverInvite offer x observer) {w.take (.invite offer) with callee := some k}
  | dropped {offer x observer m} (inFlight : .invite offer ∈ w.network) (absent : w.callee = none) :
      Moved lib w (.deliverInvite offer x observer) ((w.take (.invite offer)).abort (.missing m))
  | joined {answer desc pc d} (inFlight : .ok answer ∈ w.network)
      (read : w.localSdp.bind (lib.createSessionDescription .offer) = some desc) (held : w.caller.pc = some pc)
      (stored : Becomes w.caller
        (some ((pc.setLocal (some desc)).setRemote (lib.createSessionDescription .answer answer))) d) :
      Moved lib w (.deliverOk answer) {w.take (.ok answer) with caller := d, answered := true}
  | unread {answer d} (inFlight : .ok answer ∈ w.network)
      (unread : w.localSdp.bind (lib.createSessionDescription .offer) = none) (kept : Becomes w.caller w.caller.pc d) :
      Moved lib w (.deliverOk answer) {w.take (.ok answer) with caller := d, answered := true}
  | added {dest body c d pc candidate} (inFlight : .message dest body ∈ w.network) (there : w.side dest = some c)
      (held : c.pc = some pc) (read : readCandidate lib (fromSip body) = some candidate)
      (takes : lib.addIceCandidate pc candidate = true)
      (stored : Becomes c (some {pc with candidates := pc.candidates ++ [candidate]}) d) :
      Moved lib w (.deliverMessage dest body) {(w.take (.message dest body)).put d dest with
        delivered := w.delivered ++ [⟨dest,body⟩]
        replies := w.replies ++ [⟨dest,true⟩]}
  | rejected {dest body c d pc} (inFlight : .message dest body ∈ w.network) (there : w.side dest = some c)
      (held : c.pc = some pc)
      (refuses : ∀ candidate, readCandidate lib (fromSip body) = some candidate →
        lib.addIceCandidate pc candidate = false) (kept : Becomes c c.pc d) :
      Moved lib w (.deliverMessage dest body) {(w.take (.message dest body)).put d dest with
        delivered := w.delivered ++ [⟨dest,body⟩]
        replies := w.replies ++ [⟨dest,false⟩]}

section
variable {lib : Library} {w u : World}

theorem performOk {α : Type} {side : Side} {c d : Call} {f : CallM α} {a : α} (ran : f {c with outbox := []} = .ok (a,d)) :
    perform side c f w = routeAll side d.outbox (w.put {d with outbox := []} side) := by
  unfold perform
  rw [ran]

theorem routeAnnounced {side : Side} {es fs : List Effect} (announces : Announces es) :
    routeAll side (es ++ fs) w = routeAll side fs w := by
  induction es with
  | nil => rfl
  | cons e es ih =>
    obtain ⟨_,_,_,same⟩ := announces e List.mem_cons_self
    subst same
    exact ih (fun a member => announces a (List.mem_cons_of_mem _ member))

theorem announcedAll (x : Creation) : Announces (announced x) := fun _ member => announcedOnly member

theorem initCallerMoved {x : Creation} {observer : Bool} (roles : Roles w) (fresh : w.caller.pc = none) :
    Moved lib w (.initCaller x observer) (perform .caller w.caller (initCaller x observer) w) := by
  unfold perform
  rw [initCallerRuns]
  have kept := withStreamKeeps x {w.caller with outbox := [], observer := observer}
  have outbox := creationOutbox x {w.caller with outbox := [], observer := observer}
  have named : (PeerConnection.new w.caller.pc) = .new none := by rw [fresh]
  cases made : lacks x {w.caller with outbox := [], observer := observer} with
  | some m => exact .uncalled
  | none =>
    cases streams : x.addTrack && x.addStream with
    | true =>
      have connected := connectionMade made (Bool.and_eq_true_iff.mp streams).1
      simp only [if_true,outbox,List.nil_append,routeAnnounced (announcedAll x)]
      exact .asked fresh rfl (kept.1.trans roles.other) (by rw [← named]; exact if_pos connected)
    | false =>
      simp only [Bool.false_eq_true,if_false,outbox,List.nil_append]
      rw [← List.append_nil (announced x),routeAnnounced (announcedAll x)]
      refine .unasked fresh kept.2.1 (kept.1.trans roles.other) ?_
      intro pc held
      simp only [afterCreation] at held
      split at held
      · rw [← named]
        exact (Option.some.inj held).symm
      · cases held

theorem offerCreatedMoved {desc : Description} (roles : Roles w) (waiting : 0 < w.offers) :
    Moved lib w (.offerCreated desc)
      (perform .caller w.caller (onCreateSessionDescriptionSuccess desc) {w with offers := w.offers-1}) := by
  unfold perform
  rw [describedRuns]
  have caller := (roles.asking waiting).1
  simp only [roles.other,caller,Bool.false_eq_true,if_false]
  exact .invited waiting ⟨caller.symm,roles.other.symm,rfl⟩

theorem answerCreatedMoved {desc : Description} {k : Call} (roles : Roles w) (there : w.callee = some k)
    (waiting : 0 < w.answers) : Moved lib w (.answerCreated desc)
      (perform .callee k (onCreateSessionDescriptionSuccess desc) {w with answers := w.answers-1}) := by
  obtain ⟨caller,callee,_⟩ := roles.callee k there
  obtain ⟨j,same,connected⟩ := roles.waiting waiting
  cases Option.some.inj (there.symm.trans same)
  obtain ⟨pc,held⟩ := Option.isSome_iff_exists.mp connected
  unfold perform
  rw [describedRuns]
  simp only [caller,callee,held,if_true]
  exact .answered there held waiting ⟨caller.symm,callee.symm,rfl⟩

theorem iceCandidateMoved {side : Side} {candidate : Candidate} {c : Call} (roles : Roles w)
    (there : w.side side = some c) (gathering : gathers c = true) :
    Moved lib w (.iceCandidate side candidate) (perform side c (onIceCandidate lib candidate) w) := by
  unfold perform
  rw [candidateRuns]
  cases side with
  | caller =>
    cases Option.some.inj there
    have caller := (roles.gathering gathering).1
    simp only [caller,roles.other]
    exact .gathered there gathering ⟨caller.symm,roles.other.symm,rfl⟩
  | callee =>
    obtain ⟨caller,callee,_⟩ := roles.callee c there
    simp only [caller,callee]
    exact .gathered there gathering ⟨caller.symm,callee.symm,rfl⟩

theorem streamMoved {side : Side} {stream : Stream} {added : Bool} {c : Call} (there : w.side side = some c) :
    Moved lib w (.stream side stream added) (perform side c (streamChanged stream added) w) := by
  unfold perform
  split
  · rename_i d ran
    cases added with
    | true =>
      obtain ⟨caller,callee,pc,_,es,outbox,announces⟩ := addStreamsExact ran
      rw [outbox,← List.append_nil ([] ++ es),List.nil_append,routeAnnounced announces]
      exact .streamed there ⟨caller,callee,pc⟩
    | false =>
      obtain ⟨caller,callee,pc,_,outbox⟩ := removeStreamExact ran
      rw [outbox]
      exact .streamed there ⟨caller,callee,pc⟩
  · exact .unseen

theorem deliverInviteMoved {offer : Bytes} {x : Creation} {observer : Bool} (inFlight : .invite offer ∈ w.network)
    (absent : w.callee = none) : Moved lib w (.deliverInvite offer x observer)
      (perform .callee (Call.new true) (calleeOffered lib x observer offer) (w.take (.invite offer))) := by
  obtain ⟨c,began,caller,callee,bare,empty⟩ : ∃ c, (calleeOffered lib x observer offer
      {Call.new true with outbox := []} = onOffer lib x offer c) ∧ c.caller = false ∧ c.callee = true ∧
      c.pc = none ∧ c.outbox = [] :=
    ⟨{Call.new true with callee := true, observer := observer},rfl,rfl,rfl,rfl,rfl⟩
  have kept := withStreamKeeps x c
  have outbox : (afterCreation x c).outbox = announced x := by rw [creationOutbox,empty,List.nil_append]
  have roles : (withStream x c).caller = false ∧ (withStream x c).callee = true :=
    ⟨kept.2.1.trans caller,kept.1.trans callee⟩
  unfold perform
  rw [began,offerRuns,callee]
  cases made : lacks x c with
  | some m => exact .dropped inFlight absent
  | none =>
    cases taken : offerTaken lib x offer with
    | some desc =>
      have read : lib.createSessionDescription .offer offer = some desc := by
        unfold offerTaken at taken
        split at taken
        · exact taken
        · cases taken
      simp only [answering,outbox,routeAnnounced (announcedAll x)]
      exact .offered inFlight absent read roles (by rw [bare])
    | none =>
      simp only [if_true,outbox,routeAnnounced (announcedAll x)]
      refine .refused inFlight absent roles ?_
      intro pc held
      simp only [afterCreation,bare] at held
      split at held
      · exact (Option.some.inj held).symm
      · cases held

theorem deliverOkMoved {answer : Bytes} (roles : Roles w) (inFlight : .ok answer ∈ w.network) :
    Moved lib w (.deliverOk answer)
      (perform .caller w.caller (onAnswer lib w.localSdp answer) {w.take (.ok answer) with answered := true}) := by
  obtain ⟨caller,connected⟩ := roles.inviting (roles.sent _ inFlight).1
  obtain ⟨pc,held⟩ := Option.isSome_iff_exists.mp connected
  unfold perform
  rw [answerRuns]
  simp only [caller,held,if_true]
  cases read : w.localSdp.bind (lib.createSessionDescription .offer) with
  | none => exact .unread inFlight read ⟨caller.symm,rfl,held.symm⟩
  | some desc => exact .joined inFlight read held ⟨caller.symm,rfl,rfl⟩

theorem deliverMessageMoved {dest : Side} {body : SipContents} {c : Call} (roles : Roles w)
    (inFlight : .message dest body ∈ w.network) (there : w.side dest = some c) :
    Moved lib w (.deliverMessage dest body) (perform dest c (onMessage lib (fromSip body))
      {w.take (.message dest body) with delivered := w.delivered ++ [⟨dest,body⟩]}) := by
  obtain ⟨sdp,reached⟩ := roles.sent _ inFlight
  obtain ⟨named,pc,held⟩ : (c.caller || c.callee) = true ∧ ∃ pc, c.pc = some pc := by
    cases dest with
    | caller =>
      cases Option.some.inj there
      obtain ⟨caller,connected⟩ := roles.inviting sdp
      exact ⟨by rw [caller,Bool.true_or],Option.isSome_iff_exists.mp connected⟩
    | callee =>
      obtain ⟨k,same,connected⟩ := reached rfl
      cases Option.some.inj (there.symm.trans same)
      exact ⟨by rw [(roles.callee c there).2.1,Bool.or_true],Option.isSome_iff_exists.mp connected⟩
  unfold perform
  rw [messageRuns]
  cases read : readCandidate lib (fromSip body) with
  | none =>
    simp only [Call.holds,named,if_true]
    cases dest <;> exact .rejected inFlight there held (by simp [read]) ⟨rfl,rfl,rfl⟩
  | some candidate =>
    cases takes : lib.addIceCandidate pc candidate with
    | true =>
      simp only [Call.holds,named,held,takes,if_true]
      cases dest <;> exact .added inFlight there held read takes ⟨rfl,rfl,rfl⟩
    | false =>
      have refuses : ∀ other, readCandidate lib (fromSip body) = some other → lib.addIceCandidate pc other = false := by
        intro other same
        cases Option.some.inj (read.symm.trans same)
        exact takes
      simp only [Call.holds,named,held,takes,if_true,Bool.false_eq_true,if_false]
      cases dest <;> exact .rejected inFlight there held refuses ⟨rfl,rfl,held.symm⟩

/- The steps that deliver what is in flight. -/
theorem inviteDelivered {offer : Bytes} {x : Creation} {observer : Bool} (running : w.aborted = none)
    (inFlight : .invite offer ∈ w.network) (absent : w.callee = none) :
    step lib w (.deliverInvite offer x observer) =
      some (perform .callee (Call.new true) (calleeOffered lib x observer offer) (w.take (.invite offer))) := by
  simp only [step,act,if_pos running,if_pos (And.intro inFlight absent)]

theorem okDelivered {answer : Bytes} (roles : Roles w) (running : w.aborted = none) (inFlight : .ok answer ∈ w.network) :
    ∃ u, step lib w (.deliverOk answer) = some u ∧ Moved lib w (.deliverOk answer) u :=
  ⟨_,by simp only [step,act,if_pos running,if_pos inFlight],deliverOkMoved roles inFlight⟩

theorem messageDelivered {dest : Side} {body : SipContents} (roles : Roles w) (running : w.aborted = none)
    (inFlight : .message dest body ∈ w.network) :
    ∃ u, step lib w (.deliverMessage dest body) = some u ∧ Moved lib w (.deliverMessage dest body) u := by
  obtain ⟨c,there⟩ : ∃ c, w.side dest = some c := by
    cases dest with
    | caller => exact ⟨w.caller,rfl⟩
    | callee =>
      obtain ⟨k,there,_⟩ := (roles.sent _ inFlight).2 rfl
      exact ⟨k,there⟩
  exact ⟨_,by simp only [step,act,if_pos running,there,if_pos inFlight],deliverMessageMoved roles inFlight there⟩

theorem stepMoved {e : Event} (roles : Roles w) (ok : step lib w e = some u) : Moved lib w e u := by
  unfold step at ok
  split at ok <;> try contradiction
  cases e with
  | initCaller x observer =>
    simp only [act] at ok
    split at ok <;> try contradiction
    rename_i fresh
    cases Option.some.inj ok
    exact initCallerMoved roles fresh
  | offerCreated desc =>
    simp only [act] at ok
    split at ok <;> try contradiction
    rename_i waiting
    cases Option.some.inj ok
    exact offerCreatedMoved roles waiting
  | offerFailed =>
    simp only [act] at ok
    split at ok <;> try contradiction
    rename_i waiting
    cases Option.some.inj ok
    exact .offerFailed waiting
  | answerCreated desc =>
    simp only [act] at ok
    split at ok <;> try contradiction
    rename_i k there
    split at ok <;> try contradiction
    rename_i waiting
    cases Option.some.inj ok
    exact answerCreatedMoved roles there waiting
  | answerFailed =>
    simp only [act] at ok
    split at ok <;> try contradiction
    rename_i waiting
    cases Option.some.inj ok
    exact .answerFailed waiting
  | iceCandidate side candidate =>
    simp only [act] at ok
    split at ok <;> try contradiction
    rename_i c there
    split at ok <;> try contradiction
    rename_i gathering
    cases Option.some.inj ok
    exact iceCandidateMoved roles there gathering
  | stream side stream added =>
    simp only [act] at ok
    split at ok <;> try contradiction
    rename_i c there
    split at ok <;> try contradiction
    cases Option.some.inj ok
    exact streamMoved there
  | deliverInvite offer x observer =>
    simp only [act] at ok
    split at ok <;> try contradiction
    rename_i found
    cases Option.some.inj ok
    exact deliverInviteMoved found.1 found.2
  | deliverOk answer =>
    simp only [act] at ok
    split at ok <;> try contradiction
    rename_i inFlight
    cases Option.some.inj ok
    exact deliverOkMoved roles inFlight
  | deliverMessage dest body =>
    simp only [act] at ok
    split at ok <;> try contradiction
    rename_i c there
    split at ok <;> try contradiction
    rename_i inFlight
    cases Option.some.inj ok
    exact deliverMessageMoved roles inFlight there

theorem newGathers {c : Call} (connection : ∀ pc, c.pc = some pc → pc = .new none) : gathers c = false := by
  unfold gathers
  cases held : c.pc with
  | none => rfl
  | some pc => rw [connection pc held]; rfl

theorem gathersSame {c d : Call} (same : d.pc = c.pc) : gathers d = gathers c := by
  unfold gathers
  rw [same]

/- A callback at one end that keeps the roles, the connection and, at the caller, its
local description. -/
theorem putRoles (side : Side) {c d : Call} {pc : Option PeerConnection} (roles : Roles w)
    (there : w.side side = some c) (kept : Becomes c pc d) (connected : c.pc.isSome = true → pc.isSome = true)
    (gathering : gathers d = true → gathers c = true ∨ side = .callee) : Roles (w.put d side) := by
  obtain ⟨caller,callee,connection⟩ := kept
  rw [← connection] at connected
  cases side with
  | caller =>
    cases Option.some.inj there
    refine ⟨callee.trans roles.other,?_,?_,?_,roles.callee,roles.waiting,roles.sent⟩
    · intro waiting
      obtain ⟨named,made⟩ := roles.asking waiting
      exact ⟨caller.trans named,connected made⟩
    · intro sdp
      obtain ⟨named,made⟩ := roles.inviting sdp
      exact ⟨caller.trans named,connected made⟩
    · intro later
      rcases gathering later with before | other
      · obtain ⟨named,reached⟩ := roles.gathering before
        exact ⟨caller.trans named,reached⟩
      · cases other
  | callee =>
    have still : Reached w → Reached (w.put d .callee) := by
      intro ⟨k,same,made⟩
      cases Option.some.inj (same.symm.trans there)
      exact ⟨d,rfl,connected made⟩
    refine ⟨roles.other,roles.asking,roles.inviting,?_,?_,fun waiting => still (roles.waiting waiting),?_⟩
    · intro later
      obtain ⟨named,reached⟩ := roles.gathering later
      exact ⟨named,still reached⟩
    · intro k same
      cases Option.some.inj same
      obtain ⟨other,named,sdp⟩ := roles.callee c there
      exact ⟨caller.trans other,callee.trans named,sdp⟩
    · intro p member
      obtain ⟨sdp,reached⟩ := roles.sent p member
      exact ⟨sdp,fun later => still (reached later)⟩

theorem sendRoles {p : Packet} (roles : Roles w) (sdp : w.localSdp.isSome = true)
    (reached : p.later = true → Reached w) : Roles (send p w) := by
  refine ⟨roles.other,roles.asking,roles.inviting,roles.gathering,roles.callee,roles.waiting,?_⟩
  intro q member
  rcases List.mem_append.mp member with old | new
  · exact roles.sent q old
  · cases List.mem_singleton.mp new
    exact ⟨sdp,reached⟩

theorem takeRoles (p : Packet) (roles : Roles w) : Roles (w.take p) :=
  ⟨roles.other,roles.asking,roles.inviting,roles.gathering,roles.callee,roles.waiting,
    fun q member => roles.sent q (List.mem_of_mem_erase member)⟩

theorem abortRoles (a : Abort) (roles : Roles w) : Roles (w.abort a) :=
  ⟨roles.other,roles.asking,roles.inviting,roles.gathering,roles.callee,roles.waiting,roles.sent⟩

/- The first connection of the caller's Call: nothing was asked or sent before. -/
theorem freshRoles (roles : Roles w) (fresh : w.caller.pc = none) :
    w.offers = 0 ∧ w.localSdp = none ∧ w.callee = none ∧ w.answers = 0 ∧ w.network = [] := by
  have unasked : ¬ 0 < w.offers := by
    intro waiting
    have made := (roles.asking waiting).2
    rw [fresh] at made
    cases made
  have unsent : w.localSdp = none := by
    cases sdp : w.localSdp with
    | none => rfl
    | some offer =>
      have made := (roles.inviting (by rw [sdp]; rfl)).2
      rw [fresh] at made
      cases made
  have never : ¬ w.localSdp.isSome = true := by
    rw [unsent]
    exact Bool.false_ne_true
  have absent : w.callee = none := by
    cases there : w.callee with
    | none => rfl
    | some k => exact absurd (roles.callee k there).2.2 never
  refine ⟨Nat.eq_zero_of_not_pos unasked,unsent,absent,Nat.eq_zero_of_not_pos ?_,?_⟩
  · intro waiting
    obtain ⟨k,there,_⟩ := roles.waiting waiting
    cases absent.symm.trans there
  · cases network : w.network with
    | nil => rfl
    | cons p rest => exact absurd (roles.sent p (by rw [network]; exact List.mem_cons_self)).1 never

theorem movedRoles {e : Event} (roles : Roles w) (moved : Moved lib w e u) : Roles u := by
  cases moved with
  | asked fresh caller plain connection =>
    refine ⟨plain,fun _ => ⟨caller,by rw [connection]; rfl⟩,fun _ => ⟨caller,by rw [connection]; rfl⟩,?_,roles.callee,
      roles.waiting,roles.sent⟩
    intro later
    rw [newGathers (fun pc held => (Option.some.inj (connection.symm.trans held)).symm)] at later
    cases later
  | unasked fresh caller plain connection =>
    obtain ⟨offers,sdp,_,_,_⟩ := freshRoles roles fresh
    refine ⟨plain,?_,?_,?_,roles.callee,roles.waiting,roles.sent⟩
    · intro waiting
      rw [show (0 < w.offers) = (0 < 0) by rw [offers]] at waiting
      cases waiting
    · intro there
      rw [show w.localSdp.isSome = false by rw [sdp]; rfl] at there
      cases there
    · intro later
      rw [newGathers connection] at later
      cases later
  | uncalled => exact abortRoles _ roles
  | unseen => exact abortRoles _ roles
  | @invited desc d waiting kept =>
    have asking := roles.asking waiting
    have put := putRoles .caller roles rfl kept id (fun later => .inl (gathersSame kept.connection ▸ later))
    have asked : d.caller = true ∧ d.pc.isSome = true :=
      ⟨kept.caller.trans asking.1,by rw [kept.connection]; exact asking.2⟩
    refine sendRoles ⟨put.other,fun _ => asked,fun _ => asked,put.gathering,?_,put.waiting,?_⟩ rfl ?_
    · intro k there
      exact ⟨(put.callee k there).1,(put.callee k there).2.1,rfl⟩
    · exact fun p member => ⟨rfl,(put.sent p member).2⟩
    · intro later
      cases later
  | offerFailed waiting =>
    exact ⟨roles.other,fun more => roles.asking (Nat.lt_of_lt_of_le more (Nat.sub_le _ _)),roles.inviting,
      roles.gathering,roles.callee,roles.waiting,roles.sent⟩
  | @answered desc k d pc there held waiting stored =>
    have put := putRoles .callee roles there stored (fun _ => rfl) (fun _ => .inr rfl)
    have reached : Reached (w.put d .callee) := ⟨d,rfl,by rw [stored.connection]; rfl⟩
    exact sendRoles (w := {w with callee := some d, answers := w.answers-1})
      ⟨put.other,put.asking,put.inviting,put.gathering,put.callee,fun _ => reached,put.sent⟩
      (put.callee d rfl).2.2 (fun _ => reached)
  | answerFailed waiting =>
    exact ⟨roles.other,roles.asking,roles.inviting,roles.gathering,roles.callee,
      fun more => roles.waiting (Nat.lt_of_lt_of_le more (Nat.sub_le _ _)),roles.sent⟩
  | @gathered side candidate c d there gathering kept =>
    have put := putRoles _ roles there kept id (fun later => .inl (gathersSame kept.connection ▸ later))
    obtain ⟨sdp,reached⟩ : w.localSdp.isSome = true ∧ Reached w := by
      cases side with
      | caller =>
        cases Option.some.inj there
        obtain ⟨_,k,same,made⟩ := roles.gathering gathering
        exact ⟨(roles.callee k same).2.2,k,same,made⟩
      | callee =>
        refine ⟨(roles.callee c there).2.2,c,there,?_⟩
        cases held : c.pc with
        | none => simp [gathers,held] at gathering
        | some pc => rfl
    refine sendRoles put (by cases side <;> exact sdp) (fun _ => ?_)
    cases side with
    | caller => exact reached
    | callee =>
      obtain ⟨k,same,made⟩ := reached
      cases Option.some.inj (same.symm.trans there)
      exact ⟨d,rfl,by rw [kept.connection]; exact made⟩
  | streamed there kept => exact putRoles _ roles there kept id (fun later => .inl (gathersSame kept.connection ▸ later))
  | @offered offer x observer desc k inFlight absent read known connection =>
    have sdp := (roles.sent _ inFlight).1
    have reached : ∀ v : World, v.callee = some k → Reached v := fun v there => ⟨k,there,by rw [connection]; rfl⟩
    refine ⟨roles.other,roles.asking,roles.inviting,?_,?_,fun _ => reached _ rfl,?_⟩
    · exact fun later => ⟨(roles.gathering later).1,reached _ rfl⟩
    · intro j same
      cases Option.some.inj same
      exact ⟨known.1,known.2,sdp⟩
    · exact fun p _ => ⟨sdp,fun _ => reached _ rfl⟩
  | @refused offer x observer k inFlight absent known connection =>
    have sdp := (roles.sent _ inFlight).1
    have never : ¬ Reached w := by
      intro ⟨j,there,_⟩
      cases absent.symm.trans there
    refine ⟨roles.other,roles.asking,roles.inviting,?_,?_,?_,?_⟩
    · exact fun later => absurd (roles.gathering later).2 never
    · intro j same
      cases Option.some.inj same
      exact ⟨known.1,known.2,sdp⟩
    · exact fun waiting => absurd (roles.waiting waiting) never
    · exact fun p member =>
        ⟨sdp,fun later => absurd ((roles.sent p (List.mem_of_mem_erase member)).2 later) never⟩
  | dropped inFlight absent => exact abortRoles _ (takeRoles _ roles)
  | @joined answer desc pc d inFlight read held stored =>
    obtain ⟨sdp,reached⟩ := roles.sent _ inFlight
    have taken := takeRoles (.ok answer) roles
    have named : d.caller = true := stored.caller.trans (roles.inviting sdp).1
    have made : d.pc.isSome = true := by rw [stored.connection]; rfl
    exact ⟨stored.callee.trans roles.other,fun _ => ⟨named,made⟩,fun _ => ⟨named,made⟩,fun _ => ⟨named,reached rfl⟩,
      taken.callee,taken.waiting,taken.sent⟩
  | @unread answer d inFlight unread kept =>
    have put := putRoles .caller (takeRoles (.ok answer) roles) rfl kept id
      (fun later => .inl (gathersSame kept.connection ▸ later))
    exact ⟨put.other,put.asking,put.inviting,put.gathering,put.callee,put.waiting,put.sent⟩
  | @added dest body c d pc candidate inFlight there held read takes stored =>
    have kept : gathers d = true → gathers c = true := by
      unfold gathers
      rw [stored.connection,held]
      exact id
    have taken : (w.take (.message dest body)).side dest = some c := by cases dest <;> exact there
    have put := putRoles dest (takeRoles (.message dest body) roles) taken stored (fun _ => rfl)
      (fun later => .inl (kept later))
    cases dest <;> exact ⟨put.other,put.asking,put.inviting,put.gathering,put.callee,put.waiting,put.sent⟩
  | @rejected dest body c d pc inFlight there held refuses kept =>
    have taken : (w.take (.message dest body)).side dest = some c := by cases dest <;> exact there
    have put := putRoles dest (takeRoles (.message dest body) roles) taken kept id
      (fun later => .inl (gathersSame kept.connection ▸ later))
    cases dest <;> exact ⟨put.other,put.asking,put.inviting,put.gathering,put.callee,put.waiting,put.sent⟩

theorem startRoles : Roles World.start := by
  refine ⟨rfl,?_,?_,?_,?_,?_,?_⟩ <;> simp [World.start,gathers,Call.new]

theorem rolesVisited (lib : Library) (events : List Event) : StepRuns.Visits (step lib) Roles World.start events :=
  StepRuns.visitsOfKeeps (C := fun _ _ => True) (fun _ _ _ roles _ ok => movedRoles roles (stepMoved roles ok)) startRoles
    (StepRuns.meetsOfEvents (fun _ _ _ => trivial) _)

end

end RtcCall.Ends
