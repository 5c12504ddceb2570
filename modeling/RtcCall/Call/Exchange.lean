import RtcCall.Call.Ends

/-! The descriptions that the two ends of a call exchange, as a negotiation of its own:
one offer, one answer, and each end keeps what the other one made. Each step of the two
Calls is one move of it or none. -/
namespace RtcCall.Exchange
open WebRtc Media Ends StepRuns

/- The text of an offer, and what it parses to. -/
structure Offer (lib : Library) where
  text : Bytes
  description : Description
  read : lib.createSessionDescription .offer text = some description

/- Where the negotiation stands; an answer is the description the callee made. A callee
whose process aborts drops the INVITE. -/
inductive Negotiation (lib : Library) where
  | idle
  | offerAsked
  | offerFailed
  | invited (offer : Bytes)
  | dropped (offer : Bytes)
  | refused (offer : Bytes)
  | answerAsked (o : Offer lib)
  | answerFailed (o : Offer lib)
  | answered (o : Offer lib) (answer : Description)
  | joined (o : Offer lib) (answer : Description)

inductive Next (lib : Library) : Negotiation lib → Negotiation lib → Prop where
  | ask : Next lib .idle .offerAsked
  | failOffer : Next lib .offerAsked .offerFailed
  | invite (offer : Bytes) : Next lib .offerAsked (.invited offer)
  | drop (offer : Bytes) : Next lib (.invited offer) (.dropped offer)
  | refuse (offer : Bytes) : Next lib (.invited offer) (.refused offer)
  | askAnswer (o : Offer lib) : Next lib (.invited o.text) (.answerAsked o)
  | failAnswer (o : Offer lib) : Next lib (.answerAsked o) (.answerFailed o)
  | answer (o : Offer lib) (a : Description) : Next lib (.answerAsked o) (.answered o a)
  | join (o : Offer lib) (a : Description) : Next lib (.answered o a) (.joined o a)

/- The local and the remote description of one end. -/
abbrev Pair := Option Description × Option Description

namespace Negotiation
variable {lib : Library}

def offers : Negotiation lib → Nat
  | .offerAsked => 1
  | _ => 0

def answers : Negotiation lib → Nat
  | .answerAsked _ => 1
  | _ => 0

def localSdp : Negotiation lib → Option Bytes
  | .idle | .offerAsked | .offerFailed => none
  | .invited offer | .dropped offer | .refused offer => some offer
  | .answerAsked o | .answerFailed o | .answered o _ | .joined o _ => some o.text

/- The INVITE or the 200 in flight. -/
def signals : Negotiation lib → List Packet
  | .invited offer => [.invite offer]
  | .answered _ a => [.ok a.sdp]
  | _ => []

def calleeThere : Negotiation lib → Bool
  | .idle | .offerAsked | .offerFailed | .invited _ | .dropped _ => false
  | _ => true

def caller : Negotiation lib → Pair
  | .joined o a => (some o.description,lib.createSessionDescription .answer a.sdp)
  | _ => (none,none)

def callee : Negotiation lib → Pair
  | .answerAsked o | .answerFailed o => (none,some o.description)
  | .answered o a | .joined o a => (some a,some o.description)
  | _ => (none,none)

end Negotiation

def pair (pc : PeerConnection) : Pair := (pc.localDescription,pc.remoteDescription)

def signal : Packet → Bool
  | .invite _ | .ok _ => true
  | .message _ _ => false

structure Follows (lib : Library) (w : World) (n : Negotiation lib) : Prop where
  roles : Roles w
  offers : w.offers = n.offers
  answers : w.answers = n.answers
  localSdp : w.localSdp = n.localSdp
  signals : w.network.filter signal = n.signals
  fresh : w.caller.pc = none → n = .idle
  there : w.callee.isSome = n.calleeThere
  caller : ∀ pc, w.caller.pc = some pc → pair pc = n.caller
  callee : ∀ k pc, w.callee = some k → k.pc = some pc → pair pc = n.callee
  heard : n.callee ≠ (none,none) → ∃ k pc, w.callee = some k ∧ k.pc = some pc

section
variable {lib : Library} {w u : World} {n : Negotiation lib}

theorem takeMessage {dest : Side} {body : SipContents} {l : List Packet} :
    (l.erase (.message dest body)).filter signal = l.filter signal := by
  rw [← List.erase_filter]
  exact List.erase_of_not_mem (by simp [signal])

theorem invitedOf {offer : Bytes} (f : Follows lib w n) (inFlight : .invite offer ∈ w.network) :
    n = .invited offer := by
  have member : .invite offer ∈ n.signals := by
    rw [← f.signals]
    exact List.mem_filter.mpr ⟨inFlight,rfl⟩
  cases n <;> simp_all [Negotiation.signals]

theorem answeredOf {answer : Bytes} (f : Follows lib w n) (inFlight : .ok answer ∈ w.network) :
    ∃ o a, n = .answered o a ∧ a.sdp = answer := by
  have member : .ok answer ∈ n.signals := by
    rw [← f.signals]
    exact List.mem_filter.mpr ⟨inFlight,rfl⟩
  cases n with
  | answered o a =>
    cases List.mem_singleton.mp member
    exact ⟨o,a,rfl,rfl⟩
  | _ => simp [Negotiation.signals] at member

/- A step that touches neither a description nor a signal. -/
theorem sameFollows (f : Follows lib w n) (roles : Roles u) (offers : u.offers = w.offers)
    (answers : u.answers = w.answers) (localSdp : u.localSdp = w.localSdp)
    (signals : u.network.filter signal = w.network.filter signal)
    (caller : u.caller.pc.map pair = w.caller.pc.map pair)
    (callee : u.callee.map (·.pc.map pair) = w.callee.map (·.pc.map pair)) : Follows lib u n := by
  refine ⟨roles,offers.trans f.offers,answers.trans f.answers,localSdp.trans f.localSdp,signals.trans f.signals,
    ?_,?_,?_,?_,?_⟩
  · intro none
    rw [none] at caller
    exact f.fresh (Option.map_eq_none_iff.mp caller.symm)
  · rw [← f.there,← Option.isSome_map,callee,Option.isSome_map]
  · intro pc held
    rw [held] at caller
    obtain ⟨before,there,same⟩ := Option.map_eq_some_iff.mp caller.symm
    rw [← same]
    exact f.caller before there
  · intro k pc there held
    rw [there] at callee
    obtain ⟨old,was,same⟩ := Option.map_eq_some_iff.mp callee.symm
    change old.pc.map pair = k.pc.map pair at same
    rw [held] at same
    obtain ⟨before,held,same⟩ := Option.map_eq_some_iff.mp same
    rw [← same]
    exact f.callee old before was held
  · intro heard
    obtain ⟨k,pc,there,held⟩ := f.heard heard
    rw [there,Option.map_some,held] at callee
    obtain ⟨j,now,same⟩ := Option.map_eq_some_iff.mp callee
    obtain ⟨later,holds,_⟩ := Option.map_eq_some_iff.mp same
    exact ⟨j,later,now,holds⟩

theorem putFollows {side : Side} {c d : Call} (f : Follows lib w n) (there : w.side side = some c)
    (same : d.pc.map pair = c.pc.map pair) (roles : Roles u)
    (ends : u.caller = (w.put d side).caller ∧ u.callee = (w.put d side).callee)
    (requests : u.offers = w.offers ∧ u.answers = w.answers ∧ u.localSdp = w.localSdp)
    (signals : u.network.filter signal = w.network.filter signal) : Follows lib u n := by
  refine sameFollows f roles requests.1 requests.2.1 requests.2.2 signals ?_ ?_
  · rw [ends.1]
    cases side with
    | caller =>
      cases Option.some.inj there
      exact same
    | callee => rfl
  · rw [ends.2]
    cases side with
    | caller => rfl
    | callee =>
      rw [show w.callee = some c from there]
      exact congrArg some same

/- One step of the two Calls is one step of the negotiation, or none. -/
theorem movedFollows {e : Event} (f : Follows lib w n) (moved : Moved lib w e u) :
    ∃ m, (m = n ∨ Next lib n m) ∧ Follows lib u m := by
  have roles := movedRoles f.roles moved
  cases moved with
  | asked fresh caller plain connection =>
    cases f.fresh fresh
    refine ⟨.offerAsked,.inr .ask,roles,congrArg (· + 1) f.offers,f.answers,f.localSdp,f.signals,?_,f.there,?_,
      f.callee,f.heard⟩
    · intro none
      rw [connection] at none
      cases none
    · intro pc held
      cases Option.some.inj (connection.symm.trans held)
      rfl
  | unasked fresh caller plain connection =>
    cases f.fresh fresh
    refine ⟨.idle,.inl rfl,roles,f.offers,f.answers,f.localSdp,f.signals,fun _ => rfl,f.there,?_,f.callee,f.heard⟩
    intro pc held
    rw [connection pc held]
    rfl
  | uncalled =>
    exact ⟨n,.inl rfl,roles,f.offers,f.answers,f.localSdp,f.signals,f.fresh,f.there,f.caller,f.callee,f.heard⟩
  | unseen =>
    exact ⟨n,.inl rfl,roles,f.offers,f.answers,f.localSdp,f.signals,f.fresh,f.there,f.caller,f.callee,f.heard⟩
  | @invited desc d waiting kept =>
    have asked : n = .offerAsked := by
      rw [f.offers] at waiting
      cases n <;> simp_all [Negotiation.offers]
    subst asked
    refine ⟨.invited desc.sdp,.inr (.invite _),roles,?_,f.answers,rfl,?_,?_,f.there,?_,f.callee,f.heard⟩
    · change w.offers-1 = 0
      rw [f.offers]
      rfl
    · change (w.network ++ [Packet.invite desc.sdp]).filter signal = _
      rw [List.filter_append,f.signals]
      rfl
    · intro none
      cases f.fresh (kept.connection.symm.trans none)
    · exact fun pc held => f.caller pc (kept.connection.symm.trans held)
  | offerFailed waiting =>
    have asked : n = .offerAsked := by
      rw [f.offers] at waiting
      cases n <;> simp_all [Negotiation.offers]
    subst asked
    refine ⟨.offerFailed,.inr .failOffer,roles,?_,f.answers,f.localSdp,f.signals,?_,f.there,f.caller,f.callee,
      f.heard⟩
    · change w.offers-1 = 0
      rw [f.offers]
      rfl
    · intro none
      cases f.fresh none
  | @answered desc k d pc there held waiting stored =>
    obtain ⟨o,rfl⟩ : ∃ o, n = .answerAsked o := by
      rw [f.answers] at waiting
      cases n <;> simp_all [Negotiation.answers]
    have before := f.callee k pc there held
    refine ⟨.answered o desc,.inr (.answer o desc),roles,f.offers,?_,f.localSdp,?_,?_,rfl,f.caller,?_,
      fun _ => ⟨d,_,rfl,stored.connection⟩⟩
    · change w.answers-1 = 0
      rw [f.answers]
      rfl
    · change (w.network ++ [Packet.ok desc.sdp]).filter signal = _
      rw [List.filter_append,f.signals]
      rfl
    · intro none
      cases f.fresh none
    · intro j later same now
      cases Option.some.inj same
      cases Option.some.inj (stored.connection.symm.trans now)
      have heard : pc.remoteDescription = some o.description := congrArg Prod.snd before
      exact Prod.ext rfl heard
  | answerFailed waiting =>
    obtain ⟨o,rfl⟩ : ∃ o, n = .answerAsked o := by
      rw [f.answers] at waiting
      cases n <;> simp_all [Negotiation.answers]
    refine ⟨.answerFailed o,.inr (.failAnswer o),roles,f.offers,?_,f.localSdp,f.signals,?_,f.there,f.caller,f.callee,
      f.heard⟩
    · change w.answers-1 = 0
      rw [f.answers]
      rfl
    · intro none
      cases f.fresh none
  | @gathered side candidate c d there gathering kept =>
    have silent : (w.network ++ [Packet.message side.peer (candidateSip lib candidate)]).filter signal =
        w.network.filter signal := by
      rw [List.filter_append]
      exact List.append_nil _
    refine ⟨n,.inl rfl,putFollows f there (by rw [kept.connection]) roles ?_ ?_ ?_⟩
    · cases side <;> exact ⟨rfl,rfl⟩
    · cases side <;> exact ⟨rfl,rfl,rfl⟩
    · cases side <;> exact silent
  | @streamed side stream added c d there kept =>
    refine ⟨n,.inl rfl,putFollows f there (by rw [kept.connection]) roles ⟨rfl,rfl⟩ ?_ ?_⟩
    · cases side <;> exact ⟨rfl,rfl,rfl⟩
    · cases side <;> rfl
  | @offered offer x observer desc k inFlight absent read known connection =>
    cases invitedOf f inFlight
    refine ⟨.answerAsked ⟨offer,desc,read⟩,.inr (.askAnswer ⟨offer,desc,read⟩),roles,f.offers,?_,f.localSdp,?_,?_,rfl,
      f.caller,?_,fun _ => ⟨k,_,rfl,connection⟩⟩
    · exact congrArg (· + 1) f.answers
    · change (w.network.erase _).filter signal = _
      rw [← List.erase_filter,f.signals]
      simp [Negotiation.signals]
    · intro none
      cases f.fresh none
    · intro j pc same held
      cases Option.some.inj same
      cases Option.some.inj (connection.symm.trans held)
      rfl
  | @refused offer x observer k inFlight absent known connection =>
    cases invitedOf f inFlight
    refine ⟨.refused offer,.inr (.refuse offer),roles,f.offers,f.answers,f.localSdp,?_,?_,rfl,f.caller,?_,?_⟩
    · change (w.network.erase _).filter signal = _
      rw [← List.erase_filter,f.signals]
      simp [Negotiation.signals]
    · intro none
      cases f.fresh none
    · intro j pc same held
      cases Option.some.inj same
      rw [connection pc held]
      rfl
    · intro heard
      exact absurd rfl heard
  | @dropped offer x observer m inFlight absent =>
    cases invitedOf f inFlight
    refine ⟨.dropped offer,.inr (.drop offer),roles,f.offers,f.answers,f.localSdp,?_,?_,f.there,f.caller,f.callee,
      f.heard⟩
    · change (w.network.erase _).filter signal = _
      rw [← List.erase_filter,f.signals]
      simp [Negotiation.signals]
    · intro none
      cases f.fresh none
  | @joined answer desc pc d inFlight read held stored =>
    obtain ⟨o,a,rfl,rfl⟩ := answeredOf f inFlight
    have known : desc = o.description := by
      rw [f.localSdp] at read
      exact Option.some.inj (read.symm.trans o.read)
    have before := f.caller pc held
    refine ⟨.joined o a,.inr (.join o a),roles,f.offers,f.answers,f.localSdp,?_,?_,f.there,?_,f.callee,f.heard⟩
    · change (w.network.erase _).filter signal = _
      rw [← List.erase_filter,f.signals]
      simp [Negotiation.signals]
    · intro none
      cases stored.connection.symm.trans none
    · intro later now
      cases Option.some.inj (stored.connection.symm.trans now)
      have bare : pc.remoteDescription = none := congrArg Prod.snd before
      simp only [pair,PeerConnection.setRemote,PeerConnection.setLocal,bare,known,Option.or_none]
      rfl
  | @unread answer d inFlight unread kept =>
    obtain ⟨o,a,rfl,rfl⟩ := answeredOf f inFlight
    rw [f.localSdp] at unread
    cases unread.symm.trans o.read
  | @added dest body c d pc candidate inFlight there held read takes stored =>
    have same : d.pc.map pair = c.pc.map pair := by
      rw [stored.connection,held]
      rfl
    refine ⟨n,.inl rfl,putFollows f there same roles ?_ ?_ ?_⟩
    · cases dest <;> exact ⟨rfl,rfl⟩
    · cases dest <;> exact ⟨rfl,rfl,rfl⟩
    · cases dest <;> exact takeMessage
  | @rejected dest body c d pc inFlight there held refuses kept =>
    refine ⟨n,.inl rfl,putFollows f there (by rw [kept.connection]) roles ?_ ?_ ?_⟩
    · cases dest <;> exact ⟨rfl,rfl⟩
    · cases dest <;> exact ⟨rfl,rfl,rfl⟩
    · cases dest <;> exact takeMessage

theorem startFollows (lib : Library) : Follows lib World.start .idle := by
  refine ⟨startRoles,rfl,rfl,rfl,rfl,fun _ => rfl,rfl,?_,?_,fun heard => absurd rfl heard⟩
  · intro pc held
    cases held
  · intro k pc there
    cases there

end

/- Each end has stored only what the other one made: the offer's description is the same
at both, and the caller's answer is what the callee's own description parses to. At most
one of the INVITE and the 200 is in flight. -/
structure Agreed (lib : Library) (w : World) : Prop where
  offer : ∀ pc d, w.caller.pc = some pc → pc.localDescription = some d →
    ∃ k e, w.callee = some k ∧ k.pc = some e ∧ e.remoteDescription = some d
  answer : ∀ pc d, w.caller.pc = some pc → pc.remoteDescription = some d →
    ∃ k e a, w.callee = some k ∧ k.pc = some e ∧ e.localDescription = some a ∧
      lib.createSessionDescription .answer a.sdp = some d
  sent : ∀ k e d, w.callee = some k → k.pc = some e → e.remoteDescription = some d →
    ∃ t, w.localSdp = some t ∧ lib.createSessionDescription .offer t = some d
  single : (w.network.filter signal).length ≤ 1

theorem agreedOf {lib : Library} {w : World} {n : Negotiation lib} (f : Follows lib w n) : Agreed lib w := by
  refine ⟨?_,?_,?_,?_⟩
  · intro pc d held known
    have mine := congrArg Prod.fst (f.caller pc held)
    change pc.localDescription = _ at mine
    rw [known] at mine
    cases n with
    | joined o a =>
      obtain ⟨k,e,there,holds⟩ := f.heard (by simp [Negotiation.callee])
      have theirs : e.remoteDescription = some o.description := congrArg Prod.snd (f.callee k e there holds)
      exact ⟨k,e,there,holds,theirs.trans mine.symm⟩
    | _ => cases mine
  · intro pc d held known
    have mine := congrArg Prod.snd (f.caller pc held)
    change pc.remoteDescription = _ at mine
    rw [known] at mine
    cases n with
    | joined o a =>
      obtain ⟨k,e,there,holds⟩ := f.heard (by simp [Negotiation.callee])
      have theirs : e.localDescription = some a := congrArg Prod.fst (f.callee k e there holds)
      exact ⟨k,e,a,there,holds,theirs,mine.symm⟩
    | _ => cases mine
  · intro k e d there held known
    have theirs := congrArg Prod.snd (f.callee k e there held)
    change e.remoteDescription = _ at theirs
    rw [known] at theirs
    have heard : ∀ o : Offer lib, some d = some o.description → w.localSdp = some o.text →
        ∃ t, w.localSdp = some t ∧ lib.createSessionDescription .offer t = some d := by
      intro o same text
      exact ⟨o.text,text,o.read.trans same.symm⟩
    cases n with
    | answerAsked o => exact heard o theirs f.localSdp
    | answerFailed o => exact heard o theirs f.localSdp
    | answered o a => exact heard o theirs f.localSdp
    | joined o a => exact heard o theirs f.localSdp
    | _ => cases theirs
  · rw [f.signals]
    cases n <;> simp [Negotiation.signals]

/- Every run of the two Calls is a run of the negotiation. -/
theorem callsNegotiate (lib : Library) (events : List Event) :
    Refines (step lib) (Follows lib) (Next lib) World.start .idle events :=
  refinesOfSteps (fun _ _ _ _ f ok => movedFollows f (stepMoved f.roles ok)) (startFollows lib)

theorem descriptionsAgree (lib : Library) (events : List Event) :
    Visits (step lib) (Agreed lib) World.start events :=
  visitsMono (fun _ ⟨_,follows⟩ => agreedOf follows) (visitsOfRefines
    (refinesOfSteps (fun _ _ _ _ f ok => movedFollows f (stepMoved f.roles ok)) (startFollows lib)))

end RtcCall.Exchange
