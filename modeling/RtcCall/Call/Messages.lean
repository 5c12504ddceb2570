import Mathlib.Data.List.Basic
import RtcCall.Session.CallContext
import RtcCall.Call.Candidates

/-! A MESSAGE as SipUserContext::onMessage hands it to the Call. Its body may be
missing, and its type may carry parameters; OnMessage compares the rendered type as
text. -/
namespace RtcCall.Messages
open WebRtc Media Descriptions Candidates

/- A received body; each parameter is rendered after a semicolon. -/
structure Received where
  mime : Mime
  parameters : List Bytes
  body : Bytes
  deriving DecidableEq, Repr

def semicolon : UInt8 := 59

def Received.contents (b : Received) : Contents :=
  ⟨(fromSip ⟨b.mime,b.body⟩).type ++ b.parameters.flatMap (semicolon :: ·),b.body⟩

inductive Abort where
  | absentBody
  | missing (m : Missing)
  deriving DecidableEq, Repr

def callOnMessage (lib : Library) (body : Option Received) (c : Call) : Except Abort Call := match body with
  | none => .error .absentBody
  | some b => match onMessage lib b.contents c with
    | .ok (_,d) => .ok d
    | .error m => .error (.missing m)

/- SipUserContext::onMessage; the dialog set of the handle is a caller's or a callee's. -/
def sipOnMessage (lib : Library) (ctx : CallContext.Role) (body : Option Received) (c : Call) :
    Except Abort Call := do
  let c ← if ctx = .caller then callOnMessage lib body c else .ok c
  if ctx = .callee then callOnMessage lib body c else .ok c

/- The body's JSON object has the three members, and the candidate built from them. -/
def Carries (lib : Library) (body : Bytes) (candidate : Candidate) : Prop :=
  ∃ json sdpMid sdpMlineIndex sdp, lib.parse body = some json ∧ json.isObject = true ∧
    (json.get (ascii "sdp_mid")).asString = some sdpMid ∧
    (json.get (ascii "sdp_mline_index")).asInt = some sdpMlineIndex ∧
    (json.get (ascii "sdp")).asString = some sdp ∧
    lib.createIceCandidate sdpMid sdpMlineIndex sdp = some candidate

/- A body of the library's type application/json with a candidate the connection adds. -/
def Takes (lib : Library) (pc : PeerConnection) (b : Received) (candidate : Candidate) : Prop :=
  Mime.sameMime b.mime Mime.json = true ∧ Carries lib b.body candidate ∧ lib.addIceCandidate pc candidate = true

def RepliedOnce (lib : Library) (ctx : CallContext.Role) (body : Option Received) (pc : PeerConnection)
    (c : Call) : Prop :=
  ∃ d reply, sipOnMessage lib ctx body c = .ok d ∧ d.outbox = c.outbox ++ [reply] ∧
    ((reply = .acceptNIT 200 ∧ ∃ b candidate, body = some b ∧ Takes lib pc b candidate ∧
        d.pc = some {pc with candidates := pc.candidates ++ [candidate]}) ∨
     (reply = .rejectNIT 488 ∧ d.pc = some pc ∧ ¬ ∃ b candidate, body = some b ∧ Takes lib pc b candidate))

theorem memberPresent {json : Json} {key : Bytes} (found : json.get key ≠ .null) : json.isMember key = true := by
  cases json with
  | object members =>
    simp only [Json.get] at found
    cases first : members.find? (·.1 == key) with
    | none => simp [first] at found
    | some m =>
      have matched := List.find?_some first
      exact List.any_eq_true.mpr ⟨m,List.mem_of_find?_eq_some first,matched⟩
  | _ => exact absurd rfl found

theorem guardIff {p : Prop} [Decidable p] {u : Unit} : guard (f := Option) p = some u ↔ p := by
  change (if p then some () else none) = some u ↔ p
  split <;> rename_i holds
  · exact ⟨fun _ => holds,fun _ => rfl⟩
  · exact ⟨nofun,fun other => absurd other holds⟩

theorem bindIff {α β : Type} {found : Option α} {rest : α → Option β} {b : β} :
    (found >>= rest) = some b ↔ ∃ a, found = some a ∧ rest a = some b := Option.bind_eq_some_iff

/- What OnMessage reads: the checks for a member follow from those for its type. -/
theorem readIff {lib : Library} {msg : Contents} {candidate : Candidate} :
    readCandidate lib msg = some candidate ↔ jsonMimeType = msg.type ∧ Carries lib msg.body candidate := by
  have member : ∀ {α : Type} {f : Json → Option α} {json : Json} {key : Bytes} {a : α}, f .null = none →
      f (json.get key) = some a → json.isMember key = true := by
    intro α f json key a null read
    apply memberPresent
    intro same
    rw [same,null] at read
    cases read
  constructor
  · intro ok
    obtain ⟨_,typed,ok⟩ := bindIff.mp ok
    obtain ⟨json,parsed,ok⟩ := bindIff.mp ok
    obtain ⟨_,object,ok⟩ := bindIff.mp ok
    obtain ⟨_,_,ok⟩ := bindIff.mp ok
    obtain ⟨sdpMid,mid,ok⟩ := bindIff.mp ok
    obtain ⟨_,_,ok⟩ := bindIff.mp ok
    obtain ⟨sdpMlineIndex,index,ok⟩ := bindIff.mp ok
    obtain ⟨_,_,ok⟩ := bindIff.mp ok
    obtain ⟨sdp,text,created⟩ := bindIff.mp ok
    exact ⟨guardIff.mp typed,json,sdpMid,sdpMlineIndex,sdp,parsed,guardIff.mp object,mid,index,text,created⟩
  · intro carries
    obtain ⟨typed,json,sdpMid,sdpMlineIndex,sdp,parsed,object,mid,index,text,created⟩ := carries
    rw [readCandidate,guardPassed typed,bindFound parsed,guardPassed object,guardPassed (member rfl mid),
      bindFound mid,guardPassed (member rfl index),bindFound index,guardPassed (member rfl text),bindFound text,created]

/- The library's rendering gives "application/json" only for that type without parameters. -/
theorem renderedJson {b : Received} (typed : jsonMimeType = b.contents.type) :
    Mime.sameMime b.mime Mime.json = true := by
  have bare : b.parameters = [] := by
    cases parameters : b.parameters with
    | nil => rfl
    | cons p rest =>
      have inside : semicolon ∈ jsonMimeType := by
        rw [typed,Received.contents,parameters]
        exact List.mem_append_right _ List.mem_cons_self
      exact absurd inside (by decide)
  have joined : Mime.json.type ++ Mime.slash :: Mime.json.subtype = b.mime.type ++ Mime.slash :: b.mime.subtype := by
    have whole : b.contents.type = b.mime.type ++ Mime.slash :: b.mime.subtype := by
      rw [Received.contents,bare]
      exact List.append_nil _
    rw [← whole,← typed]
    rfl
  obtain ⟨type,_,subtype⟩ := (List.append_cons_inj_of_notMem (by decide) (by decide)).mp joined
  rw [Mime.sameMime,← type,← subtype]
  rfl

/- With its components there, OnMessage returns. -/
theorem messageReturns {lib : Library} {msg : Contents} {c : Call} {pc : PeerConnection}
    (held : c.pc = some pc) (named : c.holds .call = true) : ∃ d, onMessage lib msg c = .ok (⟨⟩,d) := by
  rw [messageRuns]
  cases readCandidate lib msg with
  | none => exact ⟨_,if_pos named⟩
  | some candidate =>
    simp only [held,named,if_true]
    cases lib.addIceCandidate pc candidate <;> exact ⟨_,rfl⟩

theorem sipIsCall (lib : Library) (ctx : CallContext.Role) (body : Option Received) (c : Call) :
    sipOnMessage lib ctx body c = callOnMessage lib body c := by
  cases ctx with
  | caller =>
    change (callOnMessage lib body c).bind .ok = _
    cases callOnMessage lib body c <;> rfl
  | callee => rfl

/- The MESSAGE gets one reply, the right one, when it has a body that is spelled as
the Call spells its own wherever it could be accepted. -/
theorem messageRepliedOnce {lib : Library} {ctx : CallContext.Role} {body : Option Received} {pc : PeerConnection}
    {c : Call} (held : c.pc = some pc) (named : c.holds .call = true) :
    RepliedOnce lib ctx body pc c ↔
      ∃ b, body = some b ∧ ∀ candidate, Takes lib pc b candidate → b.contents.type = jsonMimeType := by
  unfold RepliedOnce
  rw [sipIsCall]
  cases body with
  | none =>
    constructor
    · intro ⟨d,reply,ok,_⟩
      cases ok
    · intro ⟨b,absent,_⟩
      cases absent
  | some b =>
    obtain ⟨d,ran⟩ := @messageReturns lib b.contents c pc held named
    have ok : callOnMessage lib (some b) c = .ok d := by simp only [callOnMessage,ran]
    rw [ok]
    constructor
    · intro ⟨_,reply,same,replied,outcome⟩
      cases same
      refine ⟨b,rfl,?_⟩
      intro candidate takes
      rcases outcome with ⟨accepted,_⟩ | ⟨_,_,none⟩
      · rcases messageExact ran with ⟨_,_,read,_⟩ | ⟨refused,_⟩
        · exact (readIff.mp read).1.symm
        · rw [refused,accepted] at replied
          cases List.append_cancel_left replied
      · exact absurd ⟨b,candidate,rfl,takes⟩ none
    · intro ⟨_,same,spelled⟩
      cases same
      rcases messageExact ran with ⟨candidate,there,read,present,adds,accepted⟩ | ⟨refused,none⟩
      · rw [held] at present
        cases present
        obtain ⟨typed,carries⟩ := readIff.mp read
        have takes : Takes lib pc b candidate := ⟨renderedJson typed,carries,adds⟩
        exact ⟨d,_,rfl,by rw [accepted],.inl ⟨rfl,b,candidate,rfl,takes,by rw [accepted]⟩⟩
      · refine ⟨d,_,rfl,by rw [refused],.inr ⟨rfl,by rw [refused]; exact held,?_⟩⟩
        intro ⟨_,candidate,same,takes⟩
        cases same
        obtain ⟨there,present,refuses⟩ := none candidate (readIff.mpr ⟨(spelled candidate takes).symm,takes.2.1⟩)
        rw [held] at present
        cases present
        rw [takes.2.2] at refuses
        cases refuses

theorem textCarries : Carries textLibrary hostText host := by
  have read : readCandidate textLibrary (makeSdpContents textLibrary (candidateBody host)) = some host :=
    (candidateRead hostRead).trans hostFormed
  exact (readIff.mp read).2

/- A caller's connection with both descriptions. -/
def joined : PeerConnection :=
  ((PeerConnection.new none).setLocal (some ⟨.offer,offerText⟩)).setRemote (some ⟨.answer,answerText⟩)

def connected : Call := {Call.new true with caller := true, pc := some joined}

theorem textRepliedOnce : RepliedOnce textLibrary .caller (some ⟨Mime.json,[],hostText⟩) joined connected :=
  (messageRepliedOnce rfl rfl).mpr ⟨_,rfl,fun _ _ => rfl⟩

/- A MESSAGE without a body aborts the process; "Application/JSON" is that type, and
its candidate is rejected. -/
theorem messageNotReplied :
    sipOnMessage textLibrary .caller none connected = .error .absentBody ∧
    ¬ RepliedOnce textLibrary .caller none joined connected ∧
    ¬ RepliedOnce textLibrary .caller (some ⟨⟨ascii "Application",ascii "JSON"⟩,[],hostText⟩) joined connected := by
  refine ⟨rfl,?_,?_⟩
  · intro ⟨d,reply,ok,_⟩
    cases ok
  · intro ⟨d,reply,ok,replied,outcome⟩
    have refused : sipOnMessage textLibrary .caller (some ⟨⟨ascii "Application",ascii "JSON"⟩,[],hostText⟩)
        connected = .ok {connected with outbox := [.rejectNIT 488]} := by rfl
    rw [refused] at ok
    cases ok
    cases replied
    rcases outcome with ⟨accepted,_⟩ | ⟨_,_,none⟩
    · cases accepted
    · exact none ⟨_,host,rfl,by decide,textCarries,rfl⟩

/-! A candidate sent to the peer and read there. -/

/- The body as it arrives when it is carried unchanged. -/
def carried (sent : SipContents) : Received := ⟨sent.mime,[],sent.body⟩

theorem carriedContents (sent : SipContents) : (carried sent).contents = fromSip sent := by
  rw [Received.contents,carried,List.flatMap_nil,List.append_nil]
  rfl

/- `create` stands for CreateIceCandidate: what OnMessage reads is its result on the
three values, whatever it does with them. -/
theorem candidateRoundTrip (lib : Library) (candidate : Candidate) (c : Call)
    (written : lib.parse (lib.write (candidateBody candidate)) = some (candidateBody candidate)) :
    ∃ d es, onIceCandidate lib candidate c = .ok (⟨⟩,d) ∧ d.outbox = c.outbox ++ es ∧
      (c.holds .call = true → es ≠ []) ∧ ∀ e ∈ es, ∃ contents sent, e = .message contents ∧
        makeContents contents = .ok (some sent) ∧
        ∀ create, readCandidate {lib with createIceCandidate := create} (carried sent).contents =
          create candidate.sdpMid candidate.sdpMlineIndex candidate.sdp := by
  refine ⟨_,_,candidateRuns lib candidate c,rfl,?_,?_⟩
  · intro named
    simp only [Call.holds,Bool.or_eq_true] at named
    rcases named with there | there <;> simp [ifSetEmit,there]
  · intro e member
    have message : e = .message (makeSdpContents lib (candidateBody candidate)) := by
      simp only [ifSetEmit,List.mem_append] at member
      rcases member with first | second
      · split at first
        · exact List.mem_singleton.mp first
        · cases first
      · split at second
        · exact List.mem_singleton.mp second
        · cases second
    obtain ⟨converted,back⟩ := candidateCarried lib (candidateBody candidate)
    refine ⟨_,_,message,converted,?_⟩
    intro create
    rw [carriedContents,back]
    exact @candidateRead {lib with createIceCandidate := create} candidate written

theorem textRoundTrip :
    ∃ d es, onIceCandidate textLibrary host connected = .ok (⟨⟩,d) ∧
      d.outbox = connected.outbox ++ es ∧ (connected.holds .call = true → es ≠ []) ∧
      ∀ e ∈ es, ∃ contents sent, e = .message contents ∧ makeContents contents = .ok (some sent) ∧
        ∀ create, readCandidate {textLibrary with createIceCandidate := create} (carried sent).contents =
          create host.sdpMid host.sdpMlineIndex host.sdp :=
  candidateRoundTrip textLibrary host connected hostRead

end RtcCall.Messages
