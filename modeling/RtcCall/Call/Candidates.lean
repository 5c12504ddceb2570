import RtcCall.Call.Ends

/-! A candidate can be added only where the remote description is set, and nothing
buffers or resends one that arrives before: the caller must have the 200 first. -/
namespace RtcCall.Candidates
open WebRtc Media Descriptions Ends StepRuns

/- Every MESSAGE delivered so far was accepted, and carried a candidate that was added
to the connection of the side it was delivered to. -/
def AllAdded (lib : Library) (w : World) : Prop :=
  w.replies = w.delivered.map (fun d => ⟨d.dest,true⟩) ∧
  ∀ d ∈ w.delivered, ∃ c pc candidate, w.side d.dest = some c ∧ c.pc = some pc ∧
    readCandidate lib (fromSip d.body) = some candidate ∧ candidate ∈ pc.candidates

/- A MESSAGE in flight can be delivered. -/
def Deliverable (lib : Library) (w : World) : Prop :=
  w.aborted = none → ∀ dest body, .message dest body ∈ w.network → (step lib w (.deliverMessage dest body)).isSome = true

/- The state before a step: no candidate reaches the caller before the 200 does. -/
def AnswerFirst (w : World) : Event → Prop
  | .deliverMessage .caller _ => w.answered = true
  | _ => True

instance (w e) : Decidable (AnswerFirst w e) := by unfold AnswerFirst; split <;> infer_instance

/- What WebRTC hands out: a text it rendered parses again, and so does a candidate,
which JsonCpp reads as it was written. -/
def Rendered (lib : Library) : Event → Prop
  | .offerCreated desc => (lib.createSessionDescription .offer desc.sdp).isSome = true
  | .answerCreated desc => (lib.createSessionDescription .answer desc.sdp).isSome = true
  | .iceCandidate _ candidate =>
    lib.parse (lib.write (candidateBody candidate)) = some (candidateBody candidate) ∧
      (lib.createIceCandidate candidate.sdpMid candidate.sdpMlineIndex candidate.sdp).isSome = true
  | _ => True

theorem candidateBodyMembers (candidate : Candidate) : candidateBody candidate =
    .object [(ascii "sdp",.string candidate.sdp),(ascii "sdp_mid",.string candidate.sdpMid),
      (ascii "sdp_mline_index",.int candidate.sdpMlineIndex)] := by
  have apart : ascii "sdp_mline_index" ≠ ascii "sdp_mid" := by decide
  have after : ¬ ascii "sdp_mline_index" < ascii "sdp_mid" := by decide
  have other : ascii "sdp" ≠ ascii "sdp_mid" := by decide
  have before : ascii "sdp" < ascii "sdp_mid" := by decide
  simp only [candidateBody,Json.set,Json.insert,if_neg apart,if_neg after,if_neg other,if_pos before]

theorem guardPassed {α : Type} {p : Prop} [Decidable p] (holds : p) (rest : Unit → Option α) :
    (guard p >>= rest) = rest () := by
  change ((if p then some () else none) >>= rest) = rest ()
  rw [if_pos holds]
  rfl

theorem bindFound {α β : Type} {found : Option α} {a : α} (held : found = some a) (rest : α → Option β) :
    (found >>= rest) = rest a := by
  rw [held]
  rfl

/- The three values come back as they were put in. -/
theorem candidateRead {lib : Library} {candidate : Candidate}
    (written : lib.parse (lib.write (candidateBody candidate)) = some (candidateBody candidate)) :
    readCandidate lib (makeSdpContents lib (candidateBody candidate)) =
      lib.createIceCandidate candidate.sdpMid candidate.sdpMlineIndex candidate.sdp := by
  have index : Json.toCInt candidate.sdpMlineIndex = some candidate.sdpMlineIndex := by
    simp only [Json.toCInt,candidate.sdpMlineIndex.property,and_self,dite_true]
  have body := candidateBodyMembers candidate
  have sdp : ((candidateBody candidate).get (ascii "sdp")).asString = some candidate.sdp := by rw [body]; rfl
  have sdpMid : ((candidateBody candidate).get (ascii "sdp_mid")).asString = some candidate.sdpMid := by
    rw [body]; rfl
  have sdpMlineIndex : ((candidateBody candidate).get (ascii "sdp_mline_index")).asInt =
      some candidate.sdpMlineIndex := by rw [body]; exact index
  have object : (candidateBody candidate).isObject = true := by rw [body]; rfl
  have members : (candidateBody candidate).isMember (ascii "sdp") = true ∧
      (candidateBody candidate).isMember (ascii "sdp_mid") = true ∧
      (candidateBody candidate).isMember (ascii "sdp_mline_index") = true := by rw [body]; exact ⟨rfl,rfl,rfl⟩
  have parsed : lib.parse (makeSdpContents lib (candidateBody candidate)).body =
      some (candidateBody candidate) := written
  have typed : jsonMimeType = (makeSdpContents lib (candidateBody candidate)).type := rfl
  rw [readCandidate,guardPassed typed,bindFound parsed,guardPassed object,guardPassed members.2.1,bindFound sdpMid,
    guardPassed members.2.2,bindFound sdpMlineIndex,guardPassed members.1,bindFound sdp]

theorem candidateCarried (lib : Library) (body : Json) :
    makeContents (makeSdpContents lib body) = .ok (some ⟨Mime.json,lib.write body⟩) ∧
      fromSip ⟨Mime.json,lib.write body⟩ = makeSdpContents lib body := ⟨rfl,rfl⟩

/- The connection of the Call has its remote description. -/
def Ready (c : Call) : Prop := ∃ pc, c.pc = some pc ∧ pc.remoteDescription.isSome = true

def CalleeReady (w : World) : Prop := ∃ c, w.callee = some c ∧ Ready c

/- A message can be added where it is delivered, once the 200 has reached the caller. -/
def Readable (lib : Library) (body : SipContents) : Prop := (readCandidate lib (fromSip body)).isSome = true

/- The callee's description is set before anything that follows from it is sent; the
caller has both descriptions after the 200, and none before. -/
structure Sound (lib : Library) (w : World) : Prop where
  roles : Roles w
  bare : w.answered = false → ∀ pc, w.caller.pc = some pc → pc.localDescription = none ∧ pc.remoteDescription = none
  joined : w.answered = true → Ready w.caller ∧ CalleeReady w
  asked : 0 < w.answers → CalleeReady w
  offered : ∀ t, w.localSdp = some t → (lib.createSessionDescription .offer t).isSome = true
  oks : ∀ t, .ok t ∈ w.network → (lib.createSessionDescription .answer t).isSome = true ∧ CalleeReady w
  messages : ∀ dest body, .message dest body ∈ w.network → Readable lib body ∧ (dest = .callee → CalleeReady w)
  added : AllAdded lib w

/- No candidate is taken away. -/
def Grown (c d : Call) : Prop :=
  ∀ pc, c.pc = some pc → ∃ later, d.pc = some later ∧ ∀ x ∈ pc.candidates, x ∈ later.candidates

theorem grownSame {c d : Call} (same : d.pc = c.pc) : Grown c d :=
  fun pc held => ⟨pc,same.trans held,fun _ member => member⟩

section
variable {lib : Library} {w u : World}

theorem addedGrown (added : AllAdded lib w) (replies : u.replies = w.replies) (delivered : u.delivered = w.delivered)
    (grown : ∀ side c, w.side side = some c → ∃ d, u.side side = some d ∧ Grown c d) : AllAdded lib u := by
  refine ⟨by rw [replies,delivered]; exact added.1,?_⟩
  intro d member
  rw [delivered] at member
  obtain ⟨c,pc,candidate,there,held,read,inside⟩ := added.2 d member
  obtain ⟨later,still,kept⟩ := grown d.dest c there
  obtain ⟨next,holds,more⟩ := kept pc held
  exact ⟨later,next,candidate,still,holds,read,more candidate inside⟩

theorem putGrown (side : Side) {c d : Call} (there : w.side side = some c) (grown : Grown c d) :
    ∀ s k, w.side s = some k → ∃ j, (w.put d side).side s = some j ∧ Grown k j := by
  intro s k held
  cases side with
  | caller =>
    cases s with
    | caller =>
      cases Option.some.inj (there.symm.trans held)
      exact ⟨d,rfl,grown⟩
    | callee => exact ⟨k,held,grownSame rfl⟩
  | callee =>
    cases s with
    | caller => exact ⟨k,held,grownSame rfl⟩
    | callee =>
      cases Option.some.inj (there.symm.trans held)
      exact ⟨d,rfl,grown⟩

/- A callback at one end that keeps what the connection has, and sets no description of
the caller. -/
theorem putSound (side : Side) {c d : Call} (sound : Sound lib w) (roles : Roles (w.put d side))
    (there : w.side side = some c) (ready : Ready c → Ready d) (grown : Grown c d)
    (bare : side = .caller → w.answered = false → ∀ pc, d.pc = some pc →
      pc.localDescription = none ∧ pc.remoteDescription = none) : Sound lib (w.put d side) := by
  have added := addedGrown (u := w.put d side) sound.added (by cases side <;> rfl) (by cases side <;> rfl)
    (putGrown side there grown)
  cases side with
  | caller =>
    cases Option.some.inj there
    exact ⟨roles,bare rfl,fun answered => ⟨ready (sound.joined answered).1,(sound.joined answered).2⟩,sound.asked,
      sound.offered,sound.oks,sound.messages,added⟩
  | callee =>
    have still : CalleeReady w → CalleeReady (w.put d .callee) := by
      intro ⟨k,held,set⟩
      cases Option.some.inj (there.symm.trans held)
      exact ⟨d,rfl,ready set⟩
    exact ⟨roles,sound.bare,fun answered => ⟨(sound.joined answered).1,still (sound.joined answered).2⟩,
      fun waiting => still (sound.asked waiting),sound.offered,
      fun t member => ⟨(sound.oks t member).1,still (sound.oks t member).2⟩,
      fun dest body member =>
        ⟨(sound.messages dest body member).1,fun same => still ((sound.messages dest body member).2 same)⟩,added⟩

/- A callback that leaves the connection alone. -/
theorem keptSound (side : Side) {c d : Call} (sound : Sound lib w) (roles : Roles (w.put d side))
    (there : w.side side = some c) (kept : Becomes c c.pc d) : Sound lib (w.put d side) := by
  refine putSound side sound roles there ?_ (grownSame kept.connection) ?_
  · intro ⟨pc,held,set⟩
    exact ⟨pc,kept.connection.trans held,set⟩
  · intro same answered pc held
    subst same
    cases Option.some.inj there
    exact sound.bare answered pc (kept.connection.symm.trans held)

/- What a packet must carry for the network to stay sound. -/
def Carries (lib : Library) (w : World) : Packet → Prop
  | .invite _ => True
  | .ok answer => (lib.createSessionDescription .answer answer).isSome = true ∧ CalleeReady w
  | .message dest body => Readable lib body ∧ (dest = .callee → CalleeReady w)

theorem sendSound {p : Packet} (sound : Sound lib w) (roles : Roles (send p w)) (carries : Carries lib w p) :
    Sound lib (send p w) := by
  refine ⟨roles,sound.bare,sound.joined,sound.asked,sound.offered,?_,?_,sound.added⟩
  · intro t member
    rcases List.mem_append.mp member with old | new
    · exact sound.oks t old
    · cases List.mem_singleton.mp new
      exact carries
  · intro dest body member
    rcases List.mem_append.mp member with old | new
    · exact sound.messages dest body old
    · cases List.mem_singleton.mp new
      exact carries

theorem takeSound {p : Packet} (sound : Sound lib w) : Sound lib (w.take p) :=
  ⟨takeRoles p sound.roles,sound.bare,sound.joined,sound.asked,sound.offered,
    fun t member => sound.oks t (List.mem_of_mem_erase member),
    fun dest body member => sound.messages dest body (List.mem_of_mem_erase member),sound.added⟩

theorem abortSound (a : Abort) (sound : Sound lib w) : Sound lib (w.abort a) :=
  ⟨abortRoles a sound.roles,sound.bare,sound.joined,sound.asked,sound.offered,sound.oks,sound.messages,sound.added⟩

/- The first connection of one end has nothing to lose. -/
theorem freshGrown {c d : Call} (fresh : c.pc = none) : Grown c d := by
  intro pc held
  cases fresh.symm.trans held

theorem calledSound {c : Call} (n : Nat) (sound : Sound lib w) (fresh : w.caller.pc = none)
    (roles : Roles {w with caller := c, offers := n}) (connection : ∀ pc, c.pc = some pc → pc = .new none) :
    Sound lib {w with caller := c, offers := n} := by
  have early : w.answered = false := by
    cases answered : w.answered with
    | false => rfl
    | true =>
      obtain ⟨pc,held,_⟩ := (sound.joined answered).1
      cases fresh.symm.trans held
  refine ⟨roles,?_,?_,sound.asked,sound.offered,sound.oks,sound.messages,
    addedGrown (u := {w with caller := c, offers := n}) sound.added rfl rfl ?_⟩
  · intro _ pc held
    rw [connection pc held]
    exact ⟨rfl,rfl⟩
  · intro answered
    rw [show w.answered = true from answered] at early
    cases early
  · exact putGrown (d := c) .caller rfl (freshGrown fresh)

theorem invitedSound {desc : Description} {d : Call} (sound : Sound lib w) (waiting : 0 < w.offers)
    (kept : Becomes w.caller w.caller.pc d) (rendered : (lib.createSessionDescription .offer desc.sdp).isSome = true) :
    Sound lib (send (.invite desc.sdp) {w with caller := d, offers := w.offers-1, localSdp := some desc.sdp}) := by
  have roles := @movedRoles lib w _ (.offerCreated desc) sound.roles (.invited waiting kept)
  have put := keptSound .caller sound
    (putRoles .caller sound.roles rfl kept id (fun later => .inl (gathersSame kept.connection ▸ later))) rfl kept
  have stored : Sound lib {w with caller := d, offers := w.offers-1, localSdp := some desc.sdp} := by
    refine ⟨?_,put.bare,put.joined,put.asked,?_,put.oks,put.messages,put.added⟩
    · exact ⟨roles.other,roles.asking,roles.inviting,roles.gathering,roles.callee,roles.waiting,
        fun p member => roles.sent p (List.mem_append_left _ member)⟩
    · intro t same
      cases Option.some.inj same
      exact rendered
  exact sendSound stored roles trivial

theorem answeredSound {desc : Description} {k d : Call} {pc : PeerConnection} (sound : Sound lib w)
    (there : w.callee = some k) (held : k.pc = some pc) (waiting : 0 < w.answers)
    (stored : Becomes k (some (pc.setLocal (some desc))) d)
    (rendered : (lib.createSessionDescription .answer desc.sdp).isSome = true) :
    Sound lib (send (.ok desc.sdp) {w with callee := some d, answers := w.answers-1}) := by
  have roles := @movedRoles lib w _ _ sound.roles (.answered there held waiting stored)
  have ready : Ready k → Ready d := by
    intro ⟨p,same,set⟩
    cases Option.some.inj (held.symm.trans same)
    exact ⟨_,stored.connection,set⟩
  have grown : Grown k d := by
    intro p same
    cases Option.some.inj (held.symm.trans same)
    exact ⟨_,stored.connection,fun _ member => member⟩
  have put := putSound .callee sound (putRoles .callee sound.roles there stored (fun _ => rfl) (fun _ => .inr rfl))
    there ready grown (fun same => by cases same)
  obtain ⟨e,same,set⟩ := sound.asked waiting
  cases Option.some.inj (there.symm.trans same)
  have answering : Sound lib {w with callee := some d, answers := w.answers-1} := by
    refine ⟨?_,put.bare,put.joined,fun more => put.asked (Nat.lt_of_lt_of_le more (Nat.sub_le _ _)),put.offered,
      put.oks,put.messages,put.added⟩
    exact ⟨roles.other,roles.asking,roles.inviting,roles.gathering,roles.callee,roles.waiting,
      fun p member => roles.sent p (List.mem_append_left _ member)⟩
  exact sendSound answering roles ⟨rendered,d,rfl,ready set⟩

/- WebRTC's candidate goes out as a MESSAGE that the other end can read. -/
theorem gatheredSound {side : Side} {candidate : Candidate} {c d : Call} (sound : Sound lib w)
    (there : w.side side = some c) (gathering : gathers c = true) (kept : Becomes c c.pc d)
    (written : lib.parse (lib.write (candidateBody candidate)) = some (candidateBody candidate))
    (formed : (lib.createIceCandidate candidate.sdpMid candidate.sdpMlineIndex candidate.sdp).isSome = true) :
    Sound lib (send (.message side.peer (candidateSip lib candidate)) (w.put d side)) := by
  have put := keptSound side sound
    (putRoles side sound.roles there kept id (fun later => .inl (gathersSame kept.connection ▸ later))) there kept
  refine sendSound put (@movedRoles lib w _ _ sound.roles (.gathered there gathering kept)) ⟨?_,?_⟩
  · rw [Readable,candidateSip,(candidateCarried lib _).2,candidateRead written]
    exact formed
  · intro addressed
    cases side with
    | callee => cases addressed
    | caller =>
      cases Option.some.inj there
      -- The caller's local description is set by the answer only.
      cases answered : w.answered with
      | true => exact (sound.joined answered).2
      | false =>
        cases connection : w.caller.pc with
        | none => simp [gathers,connection] at gathering
        | some pc => simp [gathers,connection,(sound.bare answered pc connection).1] at gathering

/- The INVITE is delivered: the callee's Call is new. -/
theorem invitedCallee {k : Call} (offer : Bytes) (n : Nat) (sound : Sound lib w) (absent : w.callee = none)
    (roles : Roles {w.take (.invite offer) with callee := some k, answers := n}) (asked : 0 < n → Ready k) :
    Sound lib {w.take (.invite offer) with callee := some k, answers := n} := by
  have never : ¬ CalleeReady w := by
    intro ⟨e,there,_⟩
    cases absent.symm.trans there
  have early : w.answered = false := by
    cases answered : w.answered with
    | false => rfl
    | true => exact absurd (sound.joined answered).2 never
  refine ⟨roles,sound.bare,?_,fun waiting => ⟨k,rfl,asked waiting⟩,sound.offered,?_,?_,
    addedGrown (u := {w.take (.invite offer) with callee := some k, answers := n}) sound.added rfl rfl ?_⟩
  · intro answered
    rw [show w.answered = true from answered] at early
    cases early
  · exact fun t member => absurd (sound.oks t (List.mem_of_mem_erase member)).2 never
  · exact fun dest body member => ⟨(sound.messages dest body (List.mem_of_mem_erase member)).1,
      fun same => absurd ((sound.messages dest body (List.mem_of_mem_erase member)).2 same) never⟩
  · intro side c held
    cases side with
    | caller => exact ⟨c,held,grownSame rfl⟩
    | callee => cases absent.symm.trans held

theorem joinedSound {answer : Bytes} {desc : Description} {pc : PeerConnection} {d : Call} (sound : Sound lib w)
    (inFlight : .ok answer ∈ w.network) (read : w.localSdp.bind (lib.createSessionDescription .offer) = some desc)
    (held : w.caller.pc = some pc)
    (stored : Becomes w.caller
      (some ((pc.setLocal (some desc)).setRemote (lib.createSessionDescription .answer answer))) d) :
    Sound lib {w.take (.ok answer) with caller := d, answered := true} := by
  have roles := @movedRoles lib w _ _ sound.roles (.joined inFlight read held stored)
  obtain ⟨parses,ready⟩ := sound.oks answer inFlight
  obtain ⟨remote,parsed⟩ := Option.isSome_iff_exists.mp parses
  have joined : Ready d := ⟨_,stored.connection,by rw [parsed]; rfl⟩
  have grown : Grown w.caller d := by
    intro p same
    cases Option.some.inj (held.symm.trans same)
    exact ⟨_,stored.connection,fun _ member => member⟩
  have taken := takeSound (p := .ok answer) sound
  refine ⟨roles,?_,fun _ => ⟨joined,ready⟩,taken.asked,taken.offered,taken.oks,taken.messages,
    addedGrown (u := {w.take (.ok answer) with caller := d, answered := true}) taken.added rfl rfl
      (putGrown (d := d) .caller rfl grown)⟩
  intro unanswered
  cases unanswered

/- A candidate is added where the remote description is set, and accepted. -/
theorem takenSound {dest : Side} {body : SipContents} {c d : Call} {pc : PeerConnection} {candidate : Candidate}
    (sound : Sound lib w) (inFlight : .message dest body ∈ w.network) (there : w.side dest = some c)
    (held : c.pc = some pc) (read : readCandidate lib (fromSip body) = some candidate)
    (takes : lib.addIceCandidate pc candidate = true)
    (stored : Becomes c (some {pc with candidates := pc.candidates ++ [candidate]}) d) :
    Sound lib {(w.take (.message dest body)).put d dest with
      delivered := w.delivered ++ [⟨dest,body⟩]
      replies := w.replies ++ [⟨dest,true⟩]} := by
  have roles := @movedRoles lib w _ _ sound.roles (.added inFlight there held read takes stored)
  have taken : (w.take (.message dest body)).side dest = some c := by cases dest <;> exact there
  have ready : Ready c → Ready d := by
    intro ⟨p,same,set⟩
    cases Option.some.inj (held.symm.trans same)
    exact ⟨_,stored.connection,set⟩
  have grown : Grown c d := by
    intro p same
    cases Option.some.inj (held.symm.trans same)
    exact ⟨_,stored.connection,fun _ member => List.mem_append_left _ member⟩
  have bare : dest = .caller → w.answered = false → ∀ p, d.pc = some p →
      p.localDescription = none ∧ p.remoteDescription = none := by
    intro same answered p now
    subst same
    cases Option.some.inj there
    cases Option.some.inj (stored.connection.symm.trans now)
    exact sound.bare answered pc held
  have edited : Roles ((w.take (.message dest body)).put d dest) := by
    cases dest <;> exact ⟨roles.other,roles.asking,roles.inviting,roles.gathering,roles.callee,roles.waiting,roles.sent⟩
  have put := putSound dest (takeSound (p := .message dest body) sound) edited taken ready grown bare
  have added : AllAdded lib {(w.take (.message dest body)).put d dest with
      delivered := w.delivered ++ [⟨dest,body⟩]
      replies := w.replies ++ [⟨dest,true⟩]} := by
    refine ⟨?_,?_⟩
    · change w.replies ++ _ = (w.delivered ++ _).map _
      rw [List.map_append,sound.added.1]
      rfl
    · intro x member
      rcases List.mem_append.mp member with old | new
      · cases dest <;> exact put.added.2 x old
      · cases List.mem_singleton.mp new
        refine ⟨d,_,candidate,?_,stored.connection,read,List.mem_append_right _ (List.mem_singleton_self _)⟩
        cases dest <;> rfl
  cases dest <;> exact ⟨roles,put.bare,put.joined,put.asked,put.offered,put.oks,put.messages,added⟩

theorem deliverableOf (roles : Roles w) : Deliverable lib w := by
  intro running dest body inFlight
  obtain ⟨u,delivered,_⟩ := @messageDelivered lib w dest body roles running inFlight
  rw [delivered]
  rfl

section
variable (adds : ∀ pc candidate, lib.addIceCandidate pc candidate = pc.remoteDescription.isSome)
include adds

theorem movedSound {e : Event} (sound : Sound lib w) (rendered : Rendered lib e) (first : AnswerFirst w e)
    (moved : Moved lib w e u) : Sound lib u := by
  have roles := movedRoles sound.roles moved
  cases moved with
  | @asked x observer c fresh caller plain connection =>
    exact calledSound (w.offers+1) sound fresh roles
      (fun pc held => (Option.some.inj (connection.symm.trans held)).symm)
  | unasked fresh caller plain connection => exact calledSound w.offers sound fresh roles connection
  | uncalled => exact abortSound _ sound
  | unseen => exact abortSound _ sound
  | invited waiting kept => exact invitedSound sound waiting kept rendered
  | offerFailed waiting =>
    exact ⟨roles,sound.bare,sound.joined,sound.asked,sound.offered,sound.oks,sound.messages,sound.added⟩
  | answered there held waiting stored => exact answeredSound sound there held waiting stored rendered
  | answerFailed waiting =>
    exact ⟨roles,sound.bare,sound.joined,fun more => sound.asked (Nat.lt_of_lt_of_le more (Nat.sub_le _ _)),
      sound.offered,sound.oks,sound.messages,sound.added⟩
  | gathered there gathering kept => exact gatheredSound sound there gathering kept rendered.1 rendered.2
  | streamed there kept => exact keptSound _ sound roles there kept
  | @offered offer x observer desc k inFlight absent read known connection =>
    exact invitedCallee offer (w.answers+1) sound absent roles (fun _ => ⟨_,connection,rfl⟩)
  | @refused offer x observer k inFlight absent known connection =>
    refine invitedCallee offer w.answers sound absent roles ?_
    intro waiting
    obtain ⟨e,there,_⟩ := sound.asked waiting
    cases absent.symm.trans there
  | dropped inFlight absent => exact abortSound _ (takeSound sound)
  | joined inFlight read held stored => exact joinedSound sound inFlight read held stored
  | unread inFlight unread kept =>
    obtain ⟨t,sdp⟩ := Option.isSome_iff_exists.mp (sound.roles.sent _ inFlight).1
    have parses := sound.offered t sdp
    rw [sdp,Option.bind_some] at unread
    rw [unread] at parses
    cases parses
  | added inFlight there held read takes stored => exact takenSound sound inFlight there held read takes stored
  | @rejected dest body c d pc inFlight there held refuses kept =>
    obtain ⟨readable,addressed⟩ := sound.messages dest body inFlight
    obtain ⟨p,same,set⟩ : Ready c := by
      cases dest with
      | caller =>
        cases Option.some.inj there
        exact (sound.joined first).1
      | callee =>
        obtain ⟨k,same,ready⟩ := addressed rfl
        cases Option.some.inj (there.symm.trans same)
        exact ready
    obtain ⟨candidate,read⟩ := Option.isSome_iff_exists.mp readable
    have refused := refuses candidate read
    cases Option.some.inj (held.symm.trans same)
    rw [adds,set] at refused
    cases refused

/- A candidate that overtakes the 200 finds a connection without remote description. -/
theorem overtakingRejected {e : Event}
    (bare : w.answered = false → ∀ pc, w.caller.pc = some pc → pc.remoteDescription = none)
    (early : ¬ AnswerFirst w e) (moved : Moved lib w e u) : ¬ AllAdded lib u := by
  intro added
  cases moved with
  | @added dest body c d pc candidate inFlight there held read takes stored =>
    cases dest with
    | callee => exact early trivial
    | caller =>
      cases Option.some.inj there
      rw [adds,bare (Bool.eq_false_iff.mpr early) pc held] at takes
      cases takes
  | @rejected dest body c d pc inFlight there held refuses kept =>
    have recorded : (⟨dest,false⟩ : Reply) ∈ w.replies ++ [⟨dest,false⟩] :=
      List.mem_append_right _ (List.mem_singleton_self _)
    rw [show w.replies ++ [⟨dest,false⟩] = _ from added.1] at recorded
    obtain ⟨x,_,same⟩ := List.mem_map.mp recorded
    cases same
  | _ => exact early trivial

/- Nothing is lost exactly in the runs in which the 200 comes first; a MESSAGE in flight
can be delivered in every run. -/
theorem candidatesAddedExactly (events : List Event) (rendered : ∀ e ∈ events, Rendered lib e) :
    (Visits (step lib) (AllAdded lib) World.start events ↔ Meets (step lib) AnswerFirst World.start events) ∧
      Visits (step lib) (Deliverable lib) World.start events := by
  have start : Sound lib World.start := by
    refine ⟨startRoles,?_,?_,?_,?_,?_,?_,?_⟩ <;> simp [World.start,Call.new,AllAdded]
  have keeps : Keeps (step lib) (fun w e => Rendered lib e ∧ AnswerFirst w e) (Sound lib) :=
    fun _ _ _ sound meets ok => movedSound adds sound meets.1 meets.2 (stepMoved sound.roles ok)
  refine ⟨visitsIffMeets keeps (fun _ sound => sound.added) ?_ start
    (meetsOfEvents (fun e member _ => rendered e member) _),?_⟩
  · exact fun _ _ _ sound _ early ok => overtakingRejected adds
      (fun unanswered pc held => (sound.bare unanswered pc held).2) early (stepMoved sound.roles ok)
  · exact visitsMono (fun _ roles => deliverableOf roles) (rolesVisited lib events)

end

end

/-! One candidate of the callee, delivered to the caller before the 200 or after it. -/

/- The connection and its streams are created, without a capture device. -/
def created : Creation := ⟨true,none,true,true⟩

/- The callee answers and gathers its candidate; the 200 and the MESSAGE are in flight. -/
def gathered (offer answer : Bytes) (candidate : Candidate) : List Event :=
  [.initCaller created true,.offerCreated ⟨.offer,offer⟩,.deliverInvite offer created true,
    .answerCreated ⟨.answer,answer⟩,.iceCandidate .callee candidate]

def overtaking (lib : Library) (offer answer : Bytes) (candidate : Candidate) : List Event :=
  gathered offer answer candidate ++ [.deliverMessage .caller (candidateSip lib candidate)]

def following (lib : Library) (offer answer : Bytes) (candidate : Candidate) : List Event :=
  gathered offer answer candidate ++ [.deliverOk answer,.deliverMessage .caller (candidateSip lib candidate)]

def offering : Call := {Call.new true with observer := true, caller := true, pc := some (.new none)}

def ringing (pc : PeerConnection) : Call := {Call.new true with observer := true, callee := true, pc := some pc}

def offered (offer : Bytes) : PeerConnection := (PeerConnection.new none).setRemote (some ⟨.offer,offer⟩)

/- The caller has sent its offer. -/
def dialing (callee : Option PeerConnection) (answers : Nat) (offer : Bytes) (network : List Packet) : World :=
  {World.start with
    caller := offering
    callee := callee.map ringing
    answers := answers
    localSdp := some offer
    network := network}

def answering (lib : Library) (offer answer : Bytes) (candidate : Candidate) : World :=
  dialing (some ((offered offer).setLocal (some ⟨.answer,answer⟩))) 0 offer
    [.ok answer,.message .caller (candidateSip lib candidate)]

section
variable {lib : Library} {offer : Bytes} (answer : Bytes) (candidate : Candidate)
  (read : lib.createSessionDescription .offer offer = some ⟨.offer,offer⟩)
include read

theorem offerDelivered : step lib (dialing none 0 offer [.invite offer]) (.deliverInvite offer created true) =
    some (dialing (some (offered offer)) 1 offer []) := by
  have ran : calleeOffered lib created true offer {Call.new true with outbox := []} = .ok (⟨⟩,{ringing (offered offer) with
      outbox := [.setRemoteDescription (some ⟨.offer,offer⟩),.createAnswer]}) := by
    change onOffer lib created offer {Call.new true with callee := true, observer := true} = _
    rw [offerRuns,show offerTaken lib created offer = some ⟨.offer,offer⟩ from read]
    rfl
  have taken : [Packet.invite offer].erase (.invite offer) = [] := List.erase_cons_head _ _
  rw [inviteDelivered rfl (List.mem_singleton_self _) rfl,performOk ran,World.take,
    show (dialing none 0 offer [.invite offer]).network = [.invite offer] from rfl,taken]
  rfl

theorem gatheredRuns : run (step lib) World.start (gathered offer answer candidate) =
    some (answering lib offer answer candidate) := by
  have asked : step lib World.start (.initCaller created true) =
      some {World.start with caller := offering, offers := 1} := rfl
  have invited : step lib {World.start with caller := offering, offers := 1} (.offerCreated ⟨.offer,offer⟩) =
      some (dialing none 0 offer [.invite offer]) := rfl
  have answered : step lib (dialing (some (offered offer)) 1 offer []) (.answerCreated ⟨.answer,answer⟩) =
      some (dialing (some ((offered offer).setLocal (some ⟨.answer,answer⟩))) 0 offer [.ok answer]) := rfl
  have sent : step lib (dialing (some ((offered offer).setLocal (some ⟨.answer,answer⟩))) 0 offer [.ok answer])
      (.iceCandidate .callee candidate) = some (answering lib offer answer candidate) := rfl
  simp only [gathered,run,asked,invited,offerDelivered read,answered,sent]

theorem followingRuns : ∃ w, run (step lib) World.start (following lib offer answer candidate) = some w ∧
    w.delivered = [⟨.caller,candidateSip lib candidate⟩] ∧
    Meets (step lib) AnswerFirst World.start (following lib offer answer candidate) := by
  have began := gatheredRuns answer candidate read
  have roles := visitsLast (rolesVisited lib _) began
  have sent : .ok answer ∈ (answering lib offer answer candidate).network := List.mem_cons_self
  obtain ⟨v,answered,moved⟩ := @okDelivered lib _ answer roles rfl sent
  have still : .message .caller (candidateSip lib candidate) ∈
      (answering lib offer answer candidate).network.erase (.ok answer) :=
    (List.mem_erase_of_ne (by simp)).mpr (List.mem_cons_of_mem _ (List.mem_singleton_self _))
  obtain ⟨joined,running,inFlight,empty⟩ : v.answered = true ∧ v.aborted = none ∧
      .message .caller (candidateSip lib candidate) ∈ v.network ∧ v.delivered = [] := by
    cases moved <;> exact ⟨rfl,rfl,still,rfl⟩
  obtain ⟨u,delivered,taken⟩ := @messageDelivered lib v _ _ (movedRoles roles moved) running inFlight
  refine ⟨u,runAppend began (by simp only [run,answered,delivered]),?_,(meetsAppend began).mpr ⟨?_,?_⟩⟩
  · cases taken <;> exact congrArg (· ++ _) empty
  · refine meetsOfEvents ?_ _
    intro e member s
    simp only [gathered,List.mem_cons,List.not_mem_nil,or_false] at member
    rcases member with same | same | same | same | same <;> subst same <;> trivial
  · simp only [Meets,answered,delivered]
    exact ⟨trivial,joined,trivial⟩

end

/-! Texts as WebRTC renders them, one candidate, and its JSON as FastWriter writes it. -/

def textLine (text : String) : Bytes := ascii text ++ [13,10]

/- An audio track in one stream; `own` are the lines of the end's own transport. -/
def audioText (origin : String) (own : List String) : Bytes :=
  (["v=0",origin,"s=-","t=0 0","a=group:BUNDLE audio","a=msid-semantic: WMS stream1",
    "m=audio 9 UDP/TLS/RTP/SAVPF 111","c=IN IP4 0.0.0.0","a=rtcp:9 IN IP4 0.0.0.0"] ++ own ++
    ["a=mid:audio","a=sendrecv","a=rtcp-mux","a=rtpmap:111 opus/48000/2","a=ssrc:2570980487 cname:4TOk42mSjXCkVIa6",
    "a=ssrc:2570980487 msid:stream1 audio","a=ssrc:2570980487 mslabel:stream1",
    "a=ssrc:2570980487 label:audio"]).flatMap textLine

def offerText : Bytes := audioText "o=- 4611731400430051336 2 IN IP4 127.0.0.1"
  ["a=ice-ufrag:F7gI","a=ice-pwd:x9cml/YzichV2+XlhiMu8g9k","a=fingerprint:sha-1 " ++
    "D1:2C:BE:AD:C4:F6:64:5C:25:16:11:9C:AF:E7:0F:73:79:36:4E:9C","a=setup:actpass"]

def answerText : Bytes := audioText "o=- 6169587104216520342 2 IN IP4 127.0.0.1"
  ["a=ice-ufrag:nGzr","a=ice-pwd:7N1DMRvGkQJbVWcHtu5sPyx2","a=fingerprint:sha-1 " ++
    "7B:8B:F0:65:5F:78:E2:51:3B:AC:6F:F3:3F:46:1B:35:DC:B8:5F:64","a=setup:active"]

def hostLine : Bytes :=
  ascii "candidate:1467250027 1 udp 2122260223 192.0.2.1 46243 typ host generation 0 ufrag nGzr network-id 1"

def host : Candidate := ⟨ascii "audio",⟨0,by decide⟩,hostLine⟩

def hostText : Bytes :=
  ascii "\x7b\"sdp\":\"" ++ hostLine ++ ascii "\",\"sdp_mid\":\"audio\",\"sdp_mline_index\":0\x7d\n"

/- The library on these texts: the two descriptions parse, the candidate's line does, its
JSON is written and read, and a connection with a remote description takes it. -/
def textLibrary : Library where
  createSessionDescription kind text := if text = offerText ∨ text = answerText then some ⟨kind,text⟩ else none
  createIceCandidate sdpMid sdpMlineIndex sdp :=
    if sdp = hostLine then some ⟨sdpMid,sdpMlineIndex,sdp⟩ else none
  addIceCandidate pc _ := pc.remoteDescription.isSome
  write _ := hostText
  parse text := if text = hostText then some (candidateBody host) else none

theorem textsParse {text : Bytes} (known : text = offerText ∨ text = answerText) (kind : SdpType) :
    textLibrary.createSessionDescription kind text = some ⟨kind,text⟩ := if_pos known

theorem hostRead : textLibrary.parse (textLibrary.write (candidateBody host)) = some (candidateBody host) := by
  simp only [textLibrary,if_true]

theorem hostFormed : textLibrary.createIceCandidate host.sdpMid host.sdpMlineIndex host.sdp = some host := by
  simp only [textLibrary,host,if_true]

/- The MESSAGE comes after the 200, and its candidate is added. -/
theorem inOrderAdded : ∃ w, run (step textLibrary) World.start (following textLibrary offerText answerText host) = some w ∧
    w.delivered = [⟨.caller,candidateSip textLibrary host⟩] ∧
    Visits (step textLibrary) (AllAdded textLibrary) World.start (following textLibrary offerText answerText host) := by
  obtain ⟨w,ran,delivered,first⟩ := followingRuns answerText host (textsParse (.inl rfl) .offer)
  refine ⟨w,ran,delivered,(candidatesAddedExactly (fun _ _ => rfl) _ ?_).1.mpr first⟩
  intro e member
  simp only [following,gathered,List.cons_append,List.nil_append,List.mem_cons,List.not_mem_nil,or_false] at member
  rcases member with same | same | same | same | same | same | same <;> subst same
  · trivial
  · exact congrArg Option.isSome (textsParse (.inl rfl) .offer)
  · trivial
  · exact congrArg Option.isSome (textsParse (.inr rfl) .answer)
  · exact ⟨hostRead,congrArg Option.isSome hostFormed⟩
  · trivial
  · trivial

/- The MESSAGE overtakes the 200, and its candidate is lost. -/
theorem overtakenLost :
    ¬ Visits (step textLibrary) (AllAdded textLibrary) World.start (overtaking textLibrary offerText answerText host) := by
  intro visits
  have began := gatheredRuns answerText host (textsParse (.inl rfl) .offer)
  have sent : .message .caller (candidateSip textLibrary host) ∈ (answering textLibrary offerText answerText host).network :=
    List.mem_cons_of_mem _ (List.mem_singleton_self _)
  have roles := visitsLast (rolesVisited textLibrary _) began
  obtain ⟨u,delivered,moved⟩ := @messageDelivered textLibrary _ _ _ roles rfl sent
  have last := visitsLast visits (runAppend (u := u) began (by simp only [run,delivered]))
  refine overtakingRejected (fun _ _ => rfl) ?_ ?_ moved last
  · intro _ pc held
    cases Option.some.inj held
    rfl
  · intro answered
    cases answered

end RtcCall.Candidates
