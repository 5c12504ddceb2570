import RtcCall.Call.Call

/-! What each callback of a Call leaves behind, said once. OnOffer and OnAnswer should be
all or nothing; but the connection and its sinks are made, and the caller's offer is set,
before the remote text is parsed, and the second check of OnAnswer is on the wrong
description. -/
namespace RtcCall.Descriptions
open WebRtc Media

/- The member that CreatePeerConnectionAndStreams dereferences while it is null. -/
def lacks (x : Creation) (c : Call) : Option Missing :=
  if c.pcFactory then
    if x.addTrack then
      if x.device.isSome && !c.observer then some .observer
      else if x.connection then none
      else some .pc
    else none
  else some .pcFactory

/- The Call with the capture device's track in its stream, and with the new connection. -/
def withStream (x : Creation) (c : Call) : Call := match x.device with
  | none => c
  | some track =>
    if x.addTrack then
      Call.addSink track {c with outbox := c.outbox ++ [.onAddStream track.remote (ascii "stream1") track.id]}
    else c

def afterCreation (x : Creation) (c : Call) : Call :=
  {withStream x c with pc := if x.connection then some (.new c.pc) else none}

theorem creationRuns (x : Creation) (c : Call) : createPeerConnectionAndStreams x c = match lacks x c with
    | some m => .error m
    | none => .ok (x.addTrack && x.addStream,afterCreation x c) := by
  obtain ⟨pcFactory,caller,callee,pc,observer,sinks,attached,freshSink,outbox⟩ := c
  obtain ⟨connection,device,addTrack,addStream⟩ := x
  cases pcFactory with
  | false => rfl
  | true =>
    cases addTrack with
    | false => cases device <;> rfl
    | true =>
      cases device with
      | none => cases connection <;> rfl
      | some track => cases observer <;> cases connection <;> rfl

/- The offer's description, where the connection and its streams were made. -/
def offerTaken (lib : Library) (x : Creation) (offer : Bytes) : Option Description :=
  if x.addTrack && x.addStream then lib.createSessionDescription .offer offer else none

def answering (desc : Description) (x : Creation) (c : Call) : Call :=
  {afterCreation x c with
    pc := some ((PeerConnection.new c.pc).setRemote (some desc))
    outbox := (afterCreation x c).outbox ++ [.setRemoteDescription (some desc),.createAnswer]}

theorem bindRuns {α β : Type} (f : CallM α) (g : α → CallM β) (c : Call) :
    (f >>= g) c = match f c with
      | .error m => .error m
      | .ok (a,d) => g a d := by
  change (f c).bind (fun r => g r.1 r.2) = _
  cases f c <;> rfl

theorem needRuns (m : Missing) (c : Call) : need m c = if c.holds m then .ok (⟨⟩,c) else .error m := by
  change (if c.holds m then (pure () : CallM Unit) else throw m) c = _
  split <;> rfl

/- A description is stored in the connection, or there is none to store it in. -/
theorem setLocalRuns (desc : Option Description) (c : Call) :
    setLocalDescription desc c = match c.pc with
      | some pc =>
        .ok (⟨⟩,{c with pc := some (pc.setLocal desc), outbox := c.outbox ++ [.setLocalDescription desc]})
      | none => .error .pc := by
  obtain ⟨pcFactory,caller,callee,pc,observer,sinks,attached,freshSink,outbox⟩ := c
  cases pc <;> rfl

theorem setRemoteRuns (desc : Option Description) (c : Call) :
    setRemoteDescription desc c = match c.pc with
      | some pc =>
        .ok (⟨⟩,{c with pc := some (pc.setRemote desc), outbox := c.outbox ++ [.setRemoteDescription desc]})
      | none => .error .pc := by
  obtain ⟨pcFactory,caller,callee,pc,observer,sinks,attached,freshSink,outbox⟩ := c
  cases pc <;> rfl

theorem withStreamKeeps (x : Creation) (c : Call) : (withStream x c).callee = c.callee ∧
    (withStream x c).caller = c.caller ∧ (withStream x c).pcFactory = c.pcFactory ∧
    (withStream x c).observer = c.observer := by
  unfold withStream
  split
  · exact ⟨rfl,rfl,rfl,rfl⟩
  · split <;> exact ⟨rfl,rfl,rfl,rfl⟩

theorem lacksIff {x : Creation} {c : Call} : lacks x c = none ↔ c.pcFactory = true ∧
    (x.addTrack = true → x.connection = true ∧ (x.device.isSome = true → c.observer = true)) := by
  unfold lacks
  cases c.pcFactory <;> cases x.addTrack <;> cases x.device <;> cases c.observer <;> cases x.connection <;> simp

theorem connectionMade {x : Creation} {c : Call} (made : lacks x c = none) (tracked : x.addTrack = true) :
    x.connection = true := by
  unfold lacks at made
  simp only [tracked,if_true] at made
  split at made <;> try contradiction
  split at made <;> try contradiction
  split at made <;> try contradiction
  assumption

theorem initCallerRuns (x : Creation) (observer : Bool) (c : Call) :
    initCaller x observer c = match lacks x {c with observer := observer} with
      | some m => .error m
      | none =>
        let d := afterCreation x {c with observer := observer}
        if x.addTrack && x.addStream then
          .ok (true,{d with caller := true, outbox := d.outbox ++ [.createOffer]})
        else .ok (false,d) := by
  change (createPeerConnectionAndStreams x >>= fun made => if made then
    (do modify (fun c => {c with caller := true}); need .pc; emit .createOffer; return true : CallM Bool)
    else return false) {c with observer := observer} = _
  rw [bindRuns,creationRuns]
  cases made : lacks x {c with observer := observer} with
  | some m => rfl
  | none =>
    cases streams : x.addTrack && x.addStream with
    | false => rfl
    | true =>
      have tracked : x.addTrack = true := by
        rw [Bool.and_eq_true] at streams
        exact streams.1
      have held : (afterCreation x {c with observer := observer}).pc = some (.new c.pc) :=
        if_pos (connectionMade made tracked)
      change (need .pc >>= fun _ => (do emit .createOffer; return true : CallM Bool))
        {afterCreation x {c with observer := observer} with caller := true} = _
      rw [bindRuns,needRuns,Call.holds,held]
      rfl

theorem offerRuns (lib : Library) (x : Creation) (offer : Bytes) (c : Call) :
    onOffer lib x offer c = match lacks x c with
      | some m => .error m
      | none => match offerTaken lib x offer with
        | some desc => .ok (⟨⟩,answering desc x c)
        | none =>
          if c.callee then
            .ok (⟨⟩,{afterCreation x c with outbox := (afterCreation x c).outbox ++ [.reject 488]})
          else .error .callee := by
  unfold onOffer scopedGuard
  rw [bindRuns,bindRuns,creationRuns]
  cases made : lacks x c with
  | some m => rfl
  | none =>
    have kept : (afterCreation x c).callee = c.callee := (withStreamKeeps x c).1
    have rejects : (do need .callee; emit (.reject 488) : CallM Unit) (afterCreation x c) =
        if c.callee then .ok (⟨⟩,{afterCreation x c with outbox := (afterCreation x c).outbox ++ [.reject 488]})
        else .error .callee := by
      rw [bindRuns,needRuns,Call.holds,kept]
      cases c.callee <;> rfl
    cases streams : x.addTrack && x.addStream with
    | false =>
      simp only [offerTaken,streams]
      exact rejects
    | true =>
      simp only [offerTaken,streams,if_true]
      cases parsed : lib.createSessionDescription .offer offer with
      | none => exact rejects
      | some desc =>
        have tracked : x.addTrack = true := by
          rw [Bool.and_eq_true] at streams
          exact streams.1
        have held : (afterCreation x c).pc = some (.new c.pc) := if_pos (connectionMade made tracked)
        have asks : (do setRemoteDescription (some desc); need .pc; emit .createAnswer; return true : CallM Bool)
            (afterCreation x c) = .ok (true,answering desc x c) := by
          rw [bindRuns,setRemoteRuns,held]
          simp only [bindRuns,needRuns,Call.holds,Option.isSome_some,if_true]
          change Except.ok _ = Except.ok _
          simp only [answering,List.append_assoc,List.cons_append,List.nil_append]
        simp only [asks]
        rfl

theorem answerRuns (lib : Library) (localSdp : Option Bytes) (answer : Bytes) (c : Call) :
    onAnswer lib localSdp answer c =
      if c.caller then match localSdp.bind (lib.createSessionDescription .offer) with
        | none => .ok (⟨⟩,c)
        | some localDesc => match c.pc with
          | none => .error .pc
          | some pc => .ok (⟨⟩,{c with
              pc := some ((pc.setLocal (some localDesc)).setRemote (lib.createSessionDescription .answer answer))
              outbox := c.outbox ++ [.setLocalDescription (some localDesc),
                .setRemoteDescription (lib.createSessionDescription .answer answer)]})
      else .error .caller := by
  unfold onAnswer
  rw [bindRuns,needRuns,Call.holds]
  cases named : c.caller with
  | false => rfl
  | true =>
    simp only [if_true]
    cases parsed : localSdp.bind (lib.createSessionDescription .offer) with
    | none => rfl
    | some localDesc =>
      simp only [bindRuns,setLocalRuns]
      cases held : c.pc with
      | none => rfl
      | some pc =>
        simp only [setRemoteRuns,List.append_assoc,List.cons_append,List.nil_append,named]

def ifSetEmit (present : Bool) (e : Effect) : List Effect := if present then [e] else []

theorem ifSetReturns (m : Missing) (e : Effect) (c : Call) :
    ifSet m (emit e) c = .ok (⟨⟩,{c with outbox := c.outbox ++ ifSetEmit (c.holds m) e}) := by
  change (if c.holds m then emit e else (pure () : CallM Unit)) c = _
  cases c.holds m with
  | true => rfl
  | false =>
    have empty : ifSetEmit false e = [] := rfl
    rw [empty,List.append_nil]
    rfl

theorem candidateRuns (lib : Library) (candidate : Candidate) (c : Call) :
    onIceCandidate lib candidate c = .ok (⟨⟩,{c with outbox := c.outbox ++
      (ifSetEmit c.caller (.message (makeSdpContents lib (candidateBody candidate))) ++
        ifSetEmit c.callee (.message (makeSdpContents lib (candidateBody candidate))))}) := by
  unfold onIceCandidate
  simp only [bindRuns,ifSetReturns,Call.holds,List.append_assoc]

theorem describedRuns (desc : Description) (c : Call) : onCreateSessionDescriptionSuccess desc c =
    if c.callee then match c.pc with
      | some pc => .ok (⟨⟩,{c with
          pc := some (pc.setLocal (some desc))
          outbox := c.outbox ++ ifSetEmit c.caller (.invite (some desc.sdp)) ++
            [.setLocalDescription (some desc),.accept desc.sdp 200]})
      | none => .error .pc
    else .ok (⟨⟩,{c with outbox := c.outbox ++ ifSetEmit c.caller (.invite (some desc.sdp))}) := by
  unfold onCreateSessionDescriptionSuccess
  rw [bindRuns,ifSetReturns]
  obtain ⟨pcFactory,caller,callee,pc,observer,sinks,attached,freshSink,outbox⟩ := c
  cases callee with
  | false => rfl
  | true =>
    cases pc with
    | none => rfl
    | some pc =>
      change Except.ok _ = Except.ok _
      simp only [List.append_assoc,List.cons_append,List.nil_append,Call.holds]
      rfl

/- A created description becomes the caller's offer, or the callee's answer. -/
theorem describedExact {desc : Description} {c d : Call} {u : Unit}
    (ok : onCreateSessionDescriptionSuccess desc c = .ok (u,d)) :
    (c.callee = false ∧ d = {c with outbox := c.outbox ++ ifSetEmit c.caller (.invite (some desc.sdp))}) ∨
    (c.callee = true ∧ ∃ pc, c.pc = some pc ∧ d = {c with
      pc := some (pc.setLocal (some desc))
      outbox := c.outbox ++ ifSetEmit c.caller (.invite (some desc.sdp)) ++
        [.setLocalDescription (some desc),.accept desc.sdp 200]}) := by
  rw [describedRuns] at ok
  split at ok
  · rename_i callee
    split at ok <;> try contradiction
    rename_i pc held
    cases ok
    exact .inr ⟨callee,pc,held,rfl⟩
  · rename_i other
    cases ok
    exact .inl ⟨Bool.eq_false_iff.mpr other,rfl⟩

theorem addStreamsReturn {label : Bytes} {tracks : List Track} {c : Call} (observer : c.observer = true) :
    ∃ d, addStreams label tracks c = .ok (⟨⟩,d) := by
  induction tracks generalizing c with
  | nil => exact ⟨c,rfl⟩
  | cons track rest ih =>
    obtain ⟨d,later⟩ := @ih (Call.addSink track
      {c with outbox := c.outbox ++ [.onAddStream track.remote label track.id]}) observer
    exact ⟨d,bindOk.mpr ⟨⟨⟩,_,addStreamOk.mpr ⟨observer,rfl⟩,later⟩⟩

theorem rejectRuns (c : Call) : (do need .call; emit (.rejectNIT 488) : CallM Unit) c =
    if c.holds .call then .ok (⟨⟩,{c with outbox := c.outbox ++ [.rejectNIT 488]}) else .error .call := by
  rw [bindRuns,needRuns]
  cases c.holds .call <;> rfl

theorem addCandidateRuns (lib : Library) (candidate : Candidate) (c : Call) : addCandidate lib candidate c =
    match c.pc with
    | none => .error .pc
    | some pc => .ok (lib.addIceCandidate pc candidate,if lib.addIceCandidate pc candidate then
        {c with pc := some {pc with candidates := pc.candidates ++ [candidate]}} else c) := by
  unfold addCandidate
  rw [bindRuns]
  obtain ⟨pcFactory,caller,callee,pc,observer,sinks,attached,freshSink,outbox⟩ := c
  cases pc with
  | none => rfl
  | some pc =>
    change (if lib.addIceCandidate pc candidate then _ else _ : CallM Bool) _ = _
    cases takes : lib.addIceCandidate pc candidate <;> simp only [takes] <;> rfl

/- A MESSAGE without a candidate is rejected; one with a candidate needs the connection. -/
theorem messageRuns (lib : Library) (msg : Contents) (c : Call) : onMessage lib msg c =
    match readCandidate lib msg with
    | none => if c.holds .call then .ok (⟨⟩,{c with outbox := c.outbox ++ [.rejectNIT 488]}) else .error .call
    | some candidate => match c.pc with
      | none => .error .pc
      | some pc =>
        if c.holds .call then
          if lib.addIceCandidate pc candidate then .ok (⟨⟩,{c with
              pc := some {pc with candidates := pc.candidates ++ [candidate]}
              outbox := c.outbox ++ [.acceptNIT 200]})
          else .ok (⟨⟩,{c with outbox := c.outbox ++ [.rejectNIT 488]})
        else .error .call := by
  unfold onMessage scopedGuard
  rw [bindRuns]
  cases readCandidate lib msg with
  | none => exact rejectRuns c
  | some candidate =>
    simp only [bindRuns,addCandidateRuns]
    obtain ⟨pcFactory,caller,callee,pc,observer,sinks,attached,freshSink,outbox⟩ := c
    cases pc with
    | none => rfl
    | some pc =>
      cases takes : lib.addIceCandidate pc candidate with
      | true => cases caller <;> cases callee <;> simp only [takes] <;> rfl
      | false => cases caller <;> cases callee <;> simp only [takes] <;> rfl

/- A message is accepted when it carries a candidate that the connection adds. -/
theorem messageExact {lib : Library} {msg : Contents} {c d : Call} {u : Unit}
    (ok : onMessage lib msg c = .ok (u,d)) :
    (∃ candidate pc, readCandidate lib msg = some candidate ∧ c.pc = some pc ∧
      lib.addIceCandidate pc candidate = true ∧
      d = {c with
        pc := some {pc with candidates := pc.candidates ++ [candidate]}
        outbox := c.outbox ++ [.acceptNIT 200]}) ∨
    (d = {c with outbox := c.outbox ++ [.rejectNIT 488]} ∧
      ∀ candidate, readCandidate lib msg = some candidate →
        ∃ pc, c.pc = some pc ∧ lib.addIceCandidate pc candidate = false) := by
  rw [messageRuns] at ok
  cases read : readCandidate lib msg with
  | none =>
    simp only [read] at ok
    split at ok <;> try contradiction
    cases ok
    exact .inr ⟨rfl,by simp⟩
  | some candidate =>
    simp only [read] at ok
    split at ok <;> try contradiction
    rename_i pc held
    split at ok <;> try contradiction
    split at ok
    · rename_i takes
      cases ok
      exact .inl ⟨candidate,pc,rfl,held,takes,rfl⟩
    · rename_i refuses
      cases ok
      refine .inr ⟨rfl,?_⟩
      intro other same
      cases same
      exact ⟨pc,held,Bool.eq_false_iff.mpr refuses⟩

/- No description handed over is null. -/
def NonNull (es : List Effect) : Prop :=
  ∀ desc, .setLocalDescription desc ∈ es ∨ .setRemoteDescription desc ∈ es → desc.isSome = true

/- Both parsed descriptions are handed over, or nothing happens to the connection. -/
def AnswerWhole (lib : Library) (localSdp : Option Bytes) (answer : Bytes) (c : Call) : Prop :=
  ∀ d, onAnswer lib localSdp answer c = .ok (⟨⟩,d) → ∃ es, d.outbox = c.outbox ++ es ∧ NonNull es ∧
    ((∃ localDesc remoteDesc pc, localSdp.bind (lib.createSessionDescription .offer) = some localDesc ∧
        lib.createSessionDescription .answer answer = some remoteDesc ∧ c.pc = some pc ∧
        es = [.setLocalDescription (some localDesc),.setRemoteDescription (some remoteDesc)] ∧
        d.pc = some ((pc.setLocal (some localDesc)).setRemote (some remoteDesc))) ∨
      (es = [] ∧ d.pc = c.pc))

/- A rejected offer leaves the connection and the sinks as they were. -/
def OfferWhole (lib : Library) (x : Creation) (offer : Bytes) (c : Call) : Prop :=
  ∀ d, onOffer lib x offer c = .ok (⟨⟩,d) → ∃ es, d.outbox = c.outbox ++ es ∧ NonNull es ∧
    (∀ desc, .setRemoteDescription desc ∈ es → desc = lib.createSessionDescription .offer offer) ∧
    (.reject 488 ∈ es → d.pc = c.pc ∧ d.sinks = c.sinks)

/- The members OnAnswer and OnOffer use are there. -/
def AnswerReady (c : Call) : Prop := c.caller = true ∧ c.pc.isSome = true
instance (c) : Decidable (AnswerReady c) := by unfold AnswerReady; infer_instance

def OfferReady (x : Creation) (c : Call) : Prop := lacks x c = none ∧ c.callee = true
instance (x c) : Decidable (OfferReady x c) := by unfold OfferReady; infer_instance

theorem answerWholeIff (lib : Library) (localSdp : Option Bytes) (answer : Bytes) (c : Call) :
    AnswerWhole lib localSdp answer c ↔ (AnswerReady c →
      localSdp.bind (lib.createSessionDescription .offer) = none ∨
        (lib.createSessionDescription .answer answer).isSome = true) := by
  unfold AnswerWhole
  rw [answerRuns]
  constructor
  · intro whole ready
    obtain ⟨named,present⟩ := ready
    obtain ⟨pc,held⟩ := Option.isSome_iff_exists.mp present
    cases parsed : localSdp.bind (lib.createSessionDescription .offer) with
    | none => exact .inl rfl
    | some localDesc =>
      simp only [named,if_true,parsed,held] at whole
      obtain ⟨es,grown,nonNull,_⟩ := whole _ rfl
      have same := List.append_cancel_left grown
      subst same
      exact .inr (nonNull _ (.inr (by simp)))
  · intro good d ok
    split at ok <;> try contradiction
    rename_i named
    split at ok
    · cases ok
      exact ⟨[],(List.append_nil _).symm,by simp [NonNull],.inr ⟨rfl,rfl⟩⟩
    · rename_i localDesc parsed
      split at ok <;> try contradiction
      rename_i pc held
      cases ok
      rcases good ⟨named,by rw [held]; rfl⟩ with absent | present
      · rw [parsed] at absent
        cases absent
      · obtain ⟨remoteDesc,remote⟩ := Option.isSome_iff_exists.mp present
        refine ⟨_,rfl,?_,.inl ⟨localDesc,remoteDesc,pc,parsed,remote,held,?_,?_⟩⟩
        · simp [NonNull,remote]
        · rw [remote]
        · rw [remote]

def announced (x : Creation) : List Effect := match x.device with
  | none => []
  | some track => if x.addTrack then [.onAddStream track.remote (ascii "stream1") track.id] else []

theorem creationOutbox (x : Creation) (c : Call) : (afterCreation x c).outbox = c.outbox ++ announced x := by
  unfold afterCreation withStream announced
  split
  · exact (List.append_nil _).symm
  · split
    · rfl
    · exact (List.append_nil _).symm

theorem announcedOnly {x : Creation} {e : Effect} (member : e ∈ announced x) :
    ∃ remote label id, e = .onAddStream remote label id := by
  unfold announced at member
  split at member
  · cases member
  · split at member
    · exact ⟨_,_,_,List.mem_singleton.mp member⟩
    · cases member

theorem memAnnounced {x : Creation} {es : List Effect} {e : Effect}
    (other : ∀ remote label id, e ≠ .onAddStream remote label id) : e ∈ announced x ++ es ↔ e ∈ es := by
  rw [List.mem_append]
  constructor
  · intro member
    rcases member with stream | rest
    · obtain ⟨remote,label,id,same⟩ := announcedOnly stream
      exact absurd same (other remote label id)
    · exact rest
  · exact .inr

theorem nonNullAnnounced {x : Creation} {es : List Effect} (good : NonNull es) : NonNull (announced x ++ es) := by
  intro desc member
  rw [memAnnounced (by simp),memAnnounced (by simp)] at member
  exact good desc member

theorem takenIff {lib : Library} {x : Creation} {offer : Bytes} : (offerTaken lib x offer).isSome = true ↔
    x.addTrack = true ∧ x.addStream = true ∧ (lib.createSessionDescription .offer offer).isSome = true := by
  unfold offerTaken
  cases x.addTrack <;> cases x.addStream <;> simp

theorem offerWholeIff (lib : Library) (x : Creation) (offer : Bytes) (c : Call) :
    OfferWhole lib x offer c ↔ (OfferReady x c →
      (x.addTrack = true ∧ x.addStream = true ∧ (lib.createSessionDescription .offer offer).isSome = true) ∨
        (x.connection = false ∧ c.pc = none ∧ x.addTrack = false)) := by
  unfold OfferWhole
  rw [offerRuns,← takenIff]
  constructor
  · intro whole ready
    obtain ⟨made,named⟩ := ready
    cases taken : offerTaken lib x offer with
    | some desc => exact .inl rfl
    | none =>
      simp only [made,taken,named,if_true] at whole
      obtain ⟨es,grown,_,_,kept⟩ := whole _ rfl
      rw [creationOutbox,List.append_assoc] at grown
      have same := List.append_cancel_left grown
      have held := (kept (by rw [← same]; simp)).1
      simp only [afterCreation] at held
      split at held
      · exact absurd held.symm (newOther c.pc)
      · rename_i refused
        refine .inr ⟨Bool.eq_false_iff.mpr refused,held.symm,Bool.eq_false_iff.mpr ?_⟩
        intro tracked
        exact refused (connectionMade made tracked)
  · intro good d ok
    cases made : lacks x c with
    | some m => simp [made] at ok
    | none =>
      simp only [made] at ok
      split at ok
      · rename_i desc taken
        cases ok
        have parsed : lib.createSessionDescription .offer offer = some desc := by
          unfold offerTaken at taken
          split at taken <;> try contradiction
          exact taken
        refine ⟨announced x ++ [.setRemoteDescription (some desc),.createAnswer],?_,?_,?_,?_⟩
        · simp only [answering,creationOutbox,List.append_assoc]
        · exact nonNullAnnounced (by simp [NonNull])
        · intro other member
          rw [memAnnounced (by simp)] at member
          rw [parsed]
          simpa using member
        · intro rejected
          rw [memAnnounced (by simp)] at rejected
          simp at rejected
      · split at ok <;> try contradiction
        rename_i taken named
        cases ok
        refine ⟨announced x ++ [.reject 488],?_,nonNullAnnounced (by simp [NonNull]),?_,?_⟩
        · simp only [creationOutbox,List.append_assoc]
        · intro other member
          rw [memAnnounced (by simp)] at member
          simp at member
        · intro _
          rcases good ⟨made,named⟩ with present | ⟨refused,absent,untracked⟩
          · rw [taken] at present
            cases present
          · have bare : withStream x c = c := by
              unfold withStream
              split
              · rfl
              · rw [untracked]
                rfl
            exact ⟨by simp [afterCreation,refused,absent],by simp only [afterCreation,bare]⟩

/- A description WebRTC created is never null when it is handed back. -/
theorem describedNonNull {desc : Description} {c d : Call}
    (ok : onCreateSessionDescriptionSuccess desc c = .ok (⟨⟩,d)) :
    ∃ es, d.outbox = c.outbox ++ es ∧ NonNull es := by
  have invited : NonNull (ifSetEmit c.caller (.invite (some desc.sdp))) := by
    intro other member
    unfold ifSetEmit at member
    split at member <;> simp at member
  rcases describedExact ok with ⟨_,same⟩ | ⟨_,pc,_,same⟩
  · exact ⟨_,by rw [same],invited⟩
  · refine ⟨_,by rw [same]; exact List.append_assoc _ _ _,?_⟩
    intro other member
    simp only [List.mem_append] at member
    rcases member with (old | new) | (old | new)
    · exact invited other (.inl old)
    · simp at new
      rw [new]
      rfl
    · exact invited other (.inr old)
    · simp at new

/- Exactly when OnAnswer and OnOffer are all-or-nothing; a step that dereferences a
null member instead hands nothing over. -/
theorem offerAnswerWhole (lib : Library) (x : Creation) (localSdp : Option Bytes) (text : Bytes) (c : Call) :
    (AnswerWhole lib localSdp text c ↔ (AnswerReady c →
      localSdp.bind (lib.createSessionDescription .offer) = none ∨
        (lib.createSessionDescription .answer text).isSome = true)) ∧
    (OfferWhole lib x text c ↔ (OfferReady x c →
      (x.addTrack = true ∧ x.addStream = true ∧ (lib.createSessionDescription .offer text).isSome = true) ∨
        (x.connection = false ∧ c.pc = none ∧ x.addTrack = false))) ∧
    ∀ desc d, onCreateSessionDescriptionSuccess desc c = .ok (⟨⟩,d) →
      ∃ es, d.outbox = c.outbox ++ es ∧ NonNull es :=
  ⟨answerWholeIff lib localSdp text c,offerWholeIff lib x text c,fun _ _ ok => describedNonNull ok⟩

/- A library that parses every text but the empty one. -/
def strictLibrary : Library where
  createSessionDescription kind text := if text = [] then none else some ⟨kind,text⟩
  createIceCandidate _ _ _ := none
  addIceCandidate _ _ := false
  write _ := []
  parse _ := none

def talking : Call := {Call.new true with caller := true, pc := some (.new none)}

def ringing : Call := {Call.new true with callee := true, observer := true}

def camera : Creation := ⟨true,some ⟨7,false,ascii "video"⟩,true,true⟩

/- An answer that does not parse is handed over as null, with the local offer already
set; an offer that does not parse is rejected with a new connection and a sink left. -/
theorem offerAnswerNotWhole :
    ((onAnswer strictLibrary (some [1]) [] talking).toOption.map (·.2.outbox) =
      some [.setLocalDescription (some ⟨.offer,[1]⟩),.setRemoteDescription none] ∧
      ¬ AnswerWhole strictLibrary (some [1]) [] talking) ∧
    ((onOffer strictLibrary camera [] ringing).toOption.map (fun r => (r.2.pc,r.2.sinks)) =
      some (some (.new none),[(7,some 0)]) ∧ ¬ OfferWhole strictLibrary camera [] ringing) := by
  refine ⟨⟨by decide,?_⟩,by decide,?_⟩
  · rw [answerWholeIff]
    decide
  · rw [offerWholeIff]
    decide

end RtcCall.Descriptions
