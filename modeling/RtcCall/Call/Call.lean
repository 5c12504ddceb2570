import RtcCall.Call.WebRtc

/-! Call, the application's side of one call: its members, which may be null, and the
callbacks of the session and of WebRTC. What a callback does to the components it
holds is left in an outbox, in order. -/
namespace RtcCall.Media
open WebRtc

structure Track where
  address : Nat
  remote : Bool
  id : Bytes
  deriving DecidableEq, Repr

abbrev SinkId := Nat

/- A null member that is dereferenced. -/
inductive Missing where | pcFactory | pc | observer | caller | callee | call deriving DecidableEq, Repr

inductive Effect where
  | onAddStream (remote : Bool) (label id : Bytes)
  | createOffer
  | createAnswer
  | setLocalDescription (desc : Option Description)
  | setRemoteDescription (desc : Option Description)
  | invite (offer : Option Bytes)
  | accept (answer : Bytes) (code : Int)
  | reject (code : Int)
  | message (msg : Contents)
  | acceptNIT (code : Int)
  | rejectNIT (code : Int)
  deriving DecidableEq, Repr

/- The pointers by whether they are set. `attached` are the sinks each track sends
its frames to, and `sinks` the map that owns them. -/
structure Call where
  pcFactory : Bool
  caller : Bool
  callee : Bool
  pc : Option PeerConnection
  observer : Bool
  sinks : List (Nat × Option SinkId)
  attached : List (Nat × SinkId)
  freshSink : SinkId
  outbox : List Effect
  deriving DecidableEq, Repr

def Call.new (pcFactory : Bool) : Call := ⟨pcFactory,false,false,none,false,[],[],0,[]⟩

def Call.holds (c : Call) : Missing → Bool
  | .pcFactory => c.pcFactory
  | .pc => c.pc.isSome
  | .observer => c.observer
  | .caller => c.caller
  | .callee => c.callee
  | .call => c.caller || c.callee

abbrev CallM := StateT Call (Except Missing)

def need (m : Missing) : CallM Unit := do
  if (← get).holds m then pure () else throw m

/- `if (member) ...` of the source. -/
def ifSet (m : Missing) (act : CallM Unit) : CallM Unit := do
  if (← get).holds m then act else pure ()

def emit (e : Effect) : CallM Unit := modify (fun c => {c with outbox := c.outbox ++ [e]})

/- The guard runs `fn` when the body returns without deposing it. -/
def scopedGuard (fn : CallM Unit) (body : CallM Bool) : CallM Unit := do
  if ← body then pure () else fn

/- What the factory and the new connection answer; without a capture device the
stream gets an audio track. -/
structure Creation where
  connection : Bool
  device : Option Track
  addTrack : Bool
  addStream : Bool
  deriving DecidableEq, Repr

def Call.addSink (track : Track) (c : Call) : Call :=
  {c with
    attached := c.attached ++ [(track.address,c.freshSink)]
    sinks := if c.sinks.any (·.1 == track.address) then c.sinks else c.sinks ++ [(track.address,some c.freshSink)]
    freshSink := c.freshSink+1}

def addStream (label : Bytes) (track : Track) : CallM Unit := do
  need .observer
  emit (.onAddStream track.remote label track.id)
  modify (Call.addSink track)

def addTracks (x : Creation) : CallM Bool := match x.device with
  | none => return x.addTrack
  | some track =>
    if x.addTrack then do
      addStream (ascii "stream1") track
      return true
    else return false

def createPeerConnectionAndStreams (x : Creation) : CallM Bool := do
  need .pcFactory
  modify (fun c => {c with pc := if x.connection then some (.new c.pc) else none})
  if ← addTracks x then
    need .pc
    return x.addStream
  else return false

def setLocalDescription (desc : Option Description) : CallM Unit := do
  need .pc
  modify (fun c => {c with pc := c.pc.map (·.setLocal desc)})
  emit (.setLocalDescription desc)

def setRemoteDescription (desc : Option Description) : CallM Unit := do
  need .pc
  modify (fun c => {c with pc := c.pc.map (·.setRemote desc)})
  emit (.setRemoteDescription desc)

def initCaller (x : Creation) (observer : Bool) : CallM Bool := do
  modify (fun c => {c with observer := observer})
  if ← createPeerConnectionAndStreams x then
    modify (fun c => {c with caller := true})
    need .pc
    emit .createOffer
    return true
  else return false

def initCallee : CallM Bool := do
  modify (fun c => {c with callee := true})
  return true

def setObserver (observer : Bool) : CallM Unit := modify (fun c => {c with observer := observer})

def onOffer (lib : Library) (x : Creation) (offer : Bytes) : CallM Unit :=
  scopedGuard (do need .callee; emit (.reject 488)) do
    if ← createPeerConnectionAndStreams x then
      match lib.createSessionDescription .offer offer with
      | none => return false
      | some desc =>
        setRemoteDescription (some desc)
        need .pc
        emit .createAnswer
        return true
    else return false

/- `localSdp` is what GetLocalSdp gives. The check after the second parse is on the
local description again, so a remote one that did not parse is handed over as null. -/
def onAnswer (lib : Library) (localSdp : Option Bytes) (answer : Bytes) : CallM Unit := do
  need .caller
  match localSdp.bind (lib.createSessionDescription .offer) with
  | none => pure ()
  | some localDesc =>
    setLocalDescription (some localDesc)
    setRemoteDescription (lib.createSessionDescription .answer answer)

def onCreateSessionDescriptionSuccess (desc : Description) : CallM Unit := do
  ifSet .caller (emit (.invite (some desc.sdp)))
  ifSet .callee (do setLocalDescription (some desc); emit (.accept desc.sdp 200))

def onCreateSessionDescriptionFailure : CallM Unit := pure ()

def onSetSessionDescriptionSuccess (_remote : Bool) : CallM Unit := pure ()

def onSetSessionDescriptionFailure (_remote : Bool) : CallM Unit := pure ()

def jsonMimeType : Bytes := ascii "application/json"

def makeSdpContents (lib : Library) (body : Json) : Contents := ⟨jsonMimeType,lib.write body⟩

def candidateBody (candidate : Candidate) : Json :=
  ((Json.null.set (ascii "sdp_mid") (.string candidate.sdpMid)).set
    (ascii "sdp_mline_index") (.int candidate.sdpMlineIndex)).set (ascii "sdp") (.string candidate.sdp)

def onIceCandidate (lib : Library) (candidate : Candidate) : CallM Unit := do
  let contents := makeSdpContents lib (candidateBody candidate)
  ifSet .caller (emit (.message contents))
  ifSet .callee (emit (.message contents))

/- The candidate a message carries, if every check of OnMessage passes. -/
def readCandidate (lib : Library) (msg : Contents) : Option Candidate := do
  guard (jsonMimeType = msg.type)
  let body ← lib.parse msg.body
  guard body.isObject
  guard (body.isMember (ascii "sdp_mid"))
  let sdpMid ← (body.get (ascii "sdp_mid")).asString
  guard (body.isMember (ascii "sdp_mline_index"))
  let sdpMlineIndex ← (body.get (ascii "sdp_mline_index")).asInt
  guard (body.isMember (ascii "sdp"))
  let sdp ← (body.get (ascii "sdp")).asString
  lib.createIceCandidate sdpMid sdpMlineIndex sdp

def addCandidate (lib : Library) (candidate : Candidate) : CallM Bool := do
  match (← get).pc with
  | none => throw .pc
  | some pc =>
    if lib.addIceCandidate pc candidate then
      modify (fun c => {c with pc := some {pc with candidates := pc.candidates ++ [candidate]}})
      return true
    else return false

def onMessage (lib : Library) (msg : Contents) : CallM Unit :=
  scopedGuard (do need .call; emit (.rejectNIT 488)) do
    match readCandidate lib msg with
    | none => return false
    | some candidate =>
      if ← addCandidate lib candidate then
        need .call
        emit (.acceptNIT 200)
        return true
      else return false

/- A stream by its label and its video tracks. -/
structure Stream where
  label : Bytes
  videoTracks : List Track
  deriving DecidableEq, Repr

def addStreams (label : Bytes) : List Track → CallM Unit
  | [] => pure ()
  | track::rest => do addStream label track; addStreams label rest

def onAddStream (stream : Stream) : CallM Unit := addStreams stream.label stream.videoTracks

/- `sinks_[track]` makes an entry where there is none, and no entry is ever erased. -/
def Call.removeSink (track : Track) (c : Call) : Call :=
  let stored := (c.sinks.find? (·.1 == track.address)).bind (·.2)
  {c with
    sinks := if c.sinks.any (·.1 == track.address) then c.sinks else c.sinks ++ [(track.address,none)]
    attached := c.attached.filter (fun p => !(p.1 == track.address && some p.2 == stored))}

def onRemoveStream (stream : Stream) : CallM Unit :=
  modify (fun c => stream.videoTracks.foldl (fun c track => c.removeSink track) c)

/-! A callback that returns, taken apart. -/
section
variable {α β : Type} {c d : Call}

theorem bindOk {x : CallM α} {f : α → CallM β} {b : β} :
    (x >>= f) c = .ok (b,d) ↔ ∃ a m, x c = .ok (a,m) ∧ f a m = .ok (b,d) := by
  simp only [bind,StateT.bind]
  cases x c with
  | error missing => simp [Except.bind]
  | ok r =>
    obtain ⟨a,m⟩ := r
    simp only [Except.bind,Except.ok.injEq,Prod.mk.injEq]
    exact ⟨fun h => ⟨a,m,⟨rfl,rfl⟩,h⟩,fun ⟨_,_,⟨same,kept⟩,h⟩ => by rw [same,kept]; exact h⟩

theorem pureOk {a b : α} : (pure a : CallM α) c = .ok (b,d) ↔ b = a ∧ d = c := by
  have ran : (pure a : CallM α) c = .ok (a,c) := rfl
  rw [ran,Except.ok.injEq,Prod.mk.injEq]
  exact ⟨fun h => ⟨h.1.symm,h.2.symm⟩,fun h => ⟨h.1.symm,h.2.symm⟩⟩

theorem modifyOk {f : Call → Call} {u : PUnit} : (modify f : CallM PUnit) c = .ok (u,d) ↔ d = f c := by
  simp only [modify,modifyGet,MonadStateOf.modifyGet,StateT.modifyGet,pure,Except.pure,Except.ok.injEq,
    Prod.mk.injEq,true_and]
  exact eq_comm

theorem getOk {a : Call} : (get : CallM Call) c = .ok (a,d) ↔ a = c ∧ d = c := by
  simp only [get,getThe,MonadStateOf.get,StateT.get,pure,Except.pure,Except.ok.injEq,Prod.mk.injEq]
  exact ⟨fun h => ⟨h.1.symm,h.2.symm⟩,fun h => ⟨h.1.symm,h.2.symm⟩⟩

theorem throwOk {m : Missing} {a : α} : (throw m : CallM α) c = .ok (a,d) ↔ False := by
  simp [throw,throwThe,MonadExceptOf.throw,StateT.lift,bind,Except.bind]

theorem needOk {m : Missing} {u : PUnit} : need m c = .ok (u,d) ↔ c.holds m = true ∧ d = c := by
  simp only [need,bindOk,getOk]
  constructor
  · intro ⟨a,n,⟨same,kept⟩,rest⟩
    subst same
    subst kept
    split at rest
    · rename_i there
      exact ⟨there,(pureOk.mp rest).2⟩
    · exact (throwOk.mp rest).elim
  · intro ⟨there,same⟩
    exact ⟨c,c,⟨rfl,rfl⟩,by rw [if_pos there]; exact pureOk.mpr ⟨rfl,same⟩⟩

theorem emitOk {e : Effect} {u : PUnit} : emit e c = .ok (u,d) ↔ d = {c with outbox := c.outbox ++ [e]} := modifyOk

theorem addStreamOk {label : Bytes} {track : Track} {u : PUnit} : addStream label track c = .ok (u,d) ↔
    c.observer = true ∧
      d = Call.addSink track {c with outbox := c.outbox ++ [.onAddStream track.remote label track.id]} := by
  simp only [addStream,bindOk,needOk,emitOk,modifyOk]
  constructor
  · intro ⟨_,m,⟨present,same⟩,_,n,announced,added⟩
    subst same announced
    exact ⟨present,added⟩
  · intro ⟨present,added⟩
    exact ⟨⟨⟩,c,⟨present,rfl⟩,⟨⟩,_,rfl,added⟩

end

/- The observer's part of the outbox: streams announced to the application. -/
def Announces (es : List Effect) : Prop := ∀ e ∈ es, ∃ remote label id, e = .onAddStream remote label id

theorem addStreamsExact {label : Bytes} {tracks : List Track} {c d : Call} {u : Unit}
    (ok : addStreams label tracks c = .ok (u,d)) : d.caller = c.caller ∧ d.callee = c.callee ∧ d.pc = c.pc ∧
      d.observer = c.observer ∧ ∃ es, d.outbox = c.outbox ++ es ∧ Announces es := by
  induction tracks generalizing c with
  | nil =>
    cases (pureOk.mp ok).2
    exact ⟨rfl,rfl,rfl,rfl,[],(List.append_nil _).symm,by simp [Announces]⟩
  | cons track rest ih =>
    obtain ⟨_,m,added,later⟩ := bindOk.mp ok
    cases (addStreamOk.mp added).2
    obtain ⟨caller,callee,pc,observer,es,outbox,announces⟩ := ih later
    refine ⟨caller,callee,pc,observer,.onAddStream track.remote label track.id::es,?_,?_⟩
    · rw [outbox]
      exact List.append_assoc _ [_] es
    · intro e member
      rcases List.mem_cons.mp member with same | announced
      · exact ⟨_,_,_,same⟩
      · exact announces e announced

theorem removeStreamExact {stream : Stream} {c d : Call} {u : Unit} (ok : onRemoveStream stream c = .ok (u,d)) :
    d.caller = c.caller ∧ d.callee = c.callee ∧ d.pc = c.pc ∧ d.observer = c.observer ∧ d.outbox = c.outbox := by
  cases modifyOk.mp ok
  generalize stream.videoTracks = tracks
  clear ok
  induction tracks generalizing c with
  | nil => exact ⟨rfl,rfl,rfl,rfl,rfl⟩
  | cons track rest ih => exact @ih (c.removeSink track)

end RtcCall.Media
