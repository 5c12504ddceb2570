import RtcCall.Call.Candidates

/-! The candidates of a call as goods in transit. What one end reported is in flight to
the other, or was delivered there and replied to once; what a connection has added was
read from what was delivered. -/
namespace RtcCall.Conservation
open WebRtc Media Ends StepRuns

def read (lib : Library) (body : SipContents) : Option Candidate := readCandidate lib (fromSip body)

/- The books of one direction: the bodies reported, in flight and delivered, the
candidates added, and the replies. -/
structure Tally (lib : Library) (reported inFlight delivered : List SipContents) (added : List Candidate)
    (accepted rejected : Nat) : Prop where
  carried : reported.Perm (inFlight ++ delivered)
  drawn : added.Sublist (delivered.filterMap (read lib))
  counted : accepted = added.length
  replied : accepted + rejected = delivered.length

namespace Tally
variable {lib : Library} {reported inFlight delivered other : List SipContents} {added : List Candidate}
  {accepted rejected : Nat} {body : SipContents}

theorem start : Tally lib [] [] [] [] 0 0 := ⟨.nil,.slnil,rfl,rfl⟩

theorem report (t : Tally lib reported inFlight delivered added accepted rejected) :
    Tally lib (reported ++ [body]) (inFlight ++ [body]) delivered added accepted rejected := by
  refine ⟨?_,t.drawn,t.counted,t.replied⟩
  calc (reported ++ [body]).Perm ((inFlight ++ delivered) ++ [body]) := t.carried.append_right _
    _ = inFlight ++ (delivered ++ [body]) := List.append_assoc ..
    List.Perm _ (inFlight ++ ([body] ++ delivered)) := List.perm_append_comm.append_left _
    _ = (inFlight ++ [body]) ++ delivered := (List.append_assoc ..).symm

theorem perm (same : inFlight.Perm other) (t : Tally lib reported inFlight delivered added accepted rejected) :
    Tally lib reported other delivered added accepted rejected :=
  ⟨t.carried.trans (same.append_right _),t.drawn,t.counted,t.replied⟩

/- A body leaves the network and is delivered. -/
theorem moved (taken : inFlight.Perm (body::other)) (carried : reported.Perm (inFlight ++ delivered)) :
    reported.Perm (other ++ (delivered ++ [body])) := by
  calc reported.Perm (inFlight ++ delivered) := carried
    List.Perm _ ((body::other) ++ delivered) := taken.append_right _
    List.Perm _ ((other ++ delivered) ++ [body]) := (List.perm_append_singleton _ _).symm
    _ = other ++ (delivered ++ [body]) := List.append_assoc ..

theorem accept {candidate : Candidate} (taken : inFlight.Perm (body::other))
    (carries : read lib body = some candidate)
    (t : Tally lib reported inFlight delivered added accepted rejected) :
    Tally lib reported other (delivered ++ [body]) (added ++ [candidate]) (accepted+1) rejected := by
  refine ⟨moved taken t.carried,?_,?_,?_⟩
  · rw [List.filterMap_append,List.filterMap_cons_some carries,List.filterMap_nil]
    exact t.drawn.append (List.Sublist.refl _)
  · rw [List.length_append,t.counted]
    rfl
  · have replied := t.replied
    rw [List.length_append,List.length_singleton]
    omega

theorem reject (taken : inFlight.Perm (body::other))
    (t : Tally lib reported inFlight delivered added accepted rejected) :
    Tally lib reported other (delivered ++ [body]) added accepted (rejected+1) := by
  refine ⟨moved taken t.carried,?_,t.counted,?_⟩
  · rw [List.filterMap_append]
    exact t.drawn.trans (List.sublist_append_left _ _)
  · have replied := t.replied
    rw [List.length_append,List.length_singleton]
    omega

end Tally

def addressed (dest : Side) : Packet → Option SipContents
  | .message d body => if d = dest then some body else none
  | .invite _ | .ok _ => none

def reportedBy (lib : Library) (side : Side) : Event → Option SipContents
  | .iceCandidate s candidate => if s = side then some (candidateSip lib candidate) else none
  | _ => none

def inFlight (dest : Side) (w : World) : List SipContents := w.network.filterMap (addressed dest)

def deliveredTo (dest : Side) (w : World) : List SipContents :=
  (w.delivered.filter (·.dest == dest)).map (·.body)

/- The candidates of the connection, if there is one. -/
def added (c : Option Call) : List Candidate := (c.bind (·.pc)).elim [] (·.candidates)

def Conserved (lib : Library) (past : List Event) (w : World) (dest : Side) : Prop :=
  Tally lib (past.filterMap (reportedBy lib dest.peer)) (inFlight dest w) (deliveredTo dest w)
    (added (w.side dest)) (w.replies.count ⟨dest,true⟩) (w.replies.count ⟨dest,false⟩)

section
variable {lib : Library} {w u : World} {past : List Event} {dest : Side} {e : Event}

theorem takenOther {p : Packet} (there : p ∈ w.network) (other : addressed dest p = none) :
    (inFlight dest w).Perm ((w.network.erase p).filterMap (addressed dest)) := by
  have out := (List.perm_cons_erase there).filterMap (addressed dest)
  rwa [List.filterMap_cons_none other] at out

theorem takenBody {body : SipContents} (there : .message dest body ∈ w.network) :
    (inFlight dest w).Perm (body::(w.network.erase (.message dest body)).filterMap (addressed dest)) := by
  have out := (List.perm_cons_erase there).filterMap (addressed dest)
  have own : addressed dest (.message dest body) = some body := if_pos rfl
  rwa [List.filterMap_cons_some own] at out

theorem sentOther {p : Packet} (other : addressed dest p = none) (v : World) :
    inFlight dest (send p v) = inFlight dest v := by
  unfold inFlight send
  rw [List.filterMap_append,List.filterMap_cons_none other,List.filterMap_nil,List.append_nil]

/- A step that is no business of this direction. -/
theorem quiet (c : Conserved lib past w dest) (silent : reportedBy lib dest.peer e = none)
    (network : (inFlight dest w).Perm (inFlight dest u)) (delivered : deliveredTo dest u = deliveredTo dest w)
    (kept : added (u.side dest) = added (w.side dest))
    (replies : ∀ b, u.replies.count ⟨dest,b⟩ = w.replies.count ⟨dest,b⟩) :
    Conserved lib (past ++ [e]) u dest := by
  unfold Conserved
  rw [List.filterMap_append,List.filterMap_cons_none silent,List.filterMap_nil,List.append_nil,delivered,kept,
    replies,replies]
  exact c.perm network

/- The connection of one end is edited and keeps its candidates. -/
theorem putAdded (side : Side) {c d : Call} (there : w.side side = some c)
    (kept : added (some d) = added (some c)) :
    added ((w.put d side).side dest) = added (w.side dest) := by
  cases side with
  | caller =>
    cases dest with
    | caller =>
      cases Option.some.inj there
      exact kept
    | callee => rfl
  | callee =>
    cases dest with
    | caller => rfl
    | callee =>
      change added (some d) = added w.callee
      rw [kept,show w.callee = _ from there]

theorem recordedOther {d : Side} {body : SipContents} (other : d ≠ dest) :
    ((w.delivered ++ [(⟨d,body⟩ : Delivered)]).filter (·.dest == dest)).map (·.body) = deliveredTo dest w := by
  unfold deliveredTo
  rw [List.filter_append,List.filter_cons_of_neg (by simpa using other),List.filter_nil,List.append_nil]

theorem recordedHere {body : SipContents} :
    ((w.delivered ++ [(⟨dest,body⟩ : Delivered)]).filter (·.dest == dest)).map (·.body) =
      deliveredTo dest w ++ [body] := by
  unfold deliveredTo
  rw [List.filter_append,List.filter_cons_of_pos (by simp),List.filter_nil,List.map_append]
  rfl

theorem repliedOther {r s : Reply} (other : r ≠ s) : (w.replies ++ [r]).count s = w.replies.count s := by
  rw [List.count_append,List.count_singleton,if_neg (by simpa using other)]
  rfl

theorem repliedHere {r : Reply} : (w.replies ++ [r]).count r = w.replies.count r+1 := by
  rw [List.count_append,List.count_singleton_self]

theorem putHere {d : Call} (v : World) : (v.put d dest).side dest = some d := by
  cases dest <;> rfl

/- A MESSAGE is delivered to the end `side` and replied to. -/
def delivery (side : Side) (body : SipContents) (d : Call) (found : Bool) (w : World) : World :=
  {(w.take (.message side body)).put d side with
    delivered := w.delivered ++ [⟨side,body⟩]
    replies := w.replies ++ [⟨side,found⟩]}

theorem deliverySide {side : Side} {body : SipContents} {d : Call} {found : Bool} :
    (delivery side body d found w).side dest = ((w.take (.message side body)).put d side).side dest := by
  cases dest <;> rfl

theorem deliveryNetwork {side : Side} {body : SipContents} {d : Call} {found : Bool} :
    (delivery side body d found w).network = w.network.erase (.message side body) := by
  cases side <;> rfl

theorem deliveryConserved {side : Side} {body : SipContents} {c d : Call} {found : Bool} (there : w.side side = some c)
    (sent : .message side body ∈ w.network)
    (kept : found = false → added (some d) = added (some c))
    (more : found = true → ∃ candidate, read lib body = some candidate ∧
      added (some d) = added (some c) ++ [candidate])
    (books : Conserved lib past w dest) :
    Conserved lib (past ++ [.deliverMessage side body]) (delivery side body d found w) dest := by
  by_cases own : side = dest
  · subst own
    have network : inFlight side (delivery side body d found w) =
        (w.network.erase (.message side body)).filterMap (addressed side) := by
      rw [inFlight,deliveryNetwork]
    have before : added (w.side side) = added (some c) := by rw [there]
    have after : added ((delivery side body d found w).side side) = added (some d) := by rw [deliverySide,putHere]
    have recorded : deliveredTo side (delivery side body d found w) = deliveredTo side w ++ [body] := recordedHere
    unfold Conserved at books ⊢
    rw [List.filterMap_append,List.filterMap_cons_none rfl,List.filterMap_nil,List.append_nil,network,recorded,after]
    rw [before] at books
    cases found with
    | true =>
      obtain ⟨candidate,carries,grown⟩ := more rfl
      rw [grown]
      change Tally lib _ _ _ _ ((w.replies ++ [(⟨side,true⟩ : Reply)]).count _)
        ((w.replies ++ [(⟨side,true⟩ : Reply)]).count _)
      rw [repliedHere,repliedOther (by simp)]
      exact books.accept (takenBody sent) carries
    | false =>
      rw [kept rfl]
      change Tally lib _ _ _ _ ((w.replies ++ [(⟨side,false⟩ : Reply)]).count _)
        ((w.replies ++ [(⟨side,false⟩ : Reply)]).count _)
      rw [repliedHere,repliedOther (by simp)]
      exact books.reject (takenBody sent)
  · have other : addressed dest (.message side body) = none := if_neg own
    refine quiet books rfl ?_ (recordedOther own) ?_ (fun b => repliedOther (by simp [own]))
    · rw [inFlight.eq_1 dest (delivery side body d found w),deliveryNetwork]
      exact takenOther sent other
    · rw [deliverySide]
      cases side <;> cases dest <;> first | exact absurd rfl own | rfl

/- What leaves the candidates of a connection alone. -/
theorem editedAdded {c : Call} {pc : PeerConnection} (f : PeerConnection → PeerConnection) (held : c.pc = some pc)
    (keeps : (f pc).candidates = pc.candidates) {d : Call} (changed : d.pc = some (f pc)) :
    added (some d) = added (some c) := by
  rw [added,added,Option.bind_some,Option.bind_some,held,changed]
  exact keeps

theorem freshAdded {c d : Call} (bare : c.pc = none) (fresh : ∀ pc, d.pc = some pc → pc = .new none) :
    added (some d) = added (some c) := by
  rw [added,added,Option.bind_some,Option.bind_some,bare]
  cases held : d.pc with
  | none => rfl
  | some pc => rw [fresh pc held]; rfl

theorem putKeeps (side : Side) (d : Call) : (w.put d side).network = w.network ∧
    (w.put d side).delivered = w.delivered ∧ (w.put d side).replies = w.replies := by
  cases side <;> exact ⟨rfl,rfl,rfl⟩

theorem sendSide {p : Packet} : (send p w).side dest = w.side dest := by
  cases dest <;> rfl

theorem keptAdded {c d : Call} (same : d.pc = c.pc) : added (some d) = added (some c) := by
  rw [added,added,Option.bind_some,Option.bind_some,same]

/- A candidate is reported, and its MESSAGE is on its way to the peer. -/
theorem reportConserved {side : Side} {candidate : Candidate} {c d : Call} (there : w.side side = some c)
    (same : d.pc = c.pc) (books : Conserved lib past w dest) :
    Conserved lib (past ++ [.iceCandidate side candidate])
      (send (.message side.peer (candidateSip lib candidate)) (w.put d side)) dest := by
  have kept : added ((w.put d side).side dest) = added (w.side dest) := putAdded side there (keptAdded same)
  obtain ⟨network,delivered,replies⟩ := putKeeps (w := w) side d
  by_cases own : side = dest.peer
  · have back : side.peer = dest := by rw [own]; cases dest <;> rfl
    have report : reportedBy lib dest.peer (.iceCandidate side candidate) = some (candidateSip lib candidate) :=
      if_pos own
    have addressee : addressed dest (.message side.peer (candidateSip lib candidate)) =
        some (candidateSip lib candidate) := if_pos back
    unfold Conserved
    rw [List.filterMap_append,List.filterMap_cons_some report,List.filterMap_nil,sendSide,kept]
    simp only [inFlight,deliveredTo,send,network,delivered,replies,List.filterMap_append,
      List.filterMap_cons_some addressee,List.filterMap_nil]
    exact books.report
  · have other : addressed dest (.message side.peer (candidateSip lib candidate)) = none := by
      refine if_neg ?_
      rintro rfl
      exact own (by cases side <;> rfl)
    refine quiet books (if_neg own) ?_ (by simp only [deliveredTo,send,delivered]) (by rw [sendSide,kept])
      (fun _ => by simp only [send,replies])
    rw [sentOther other,inFlight.eq_1 dest (w.put _ side),network]
    exact .refl _

/- The callee's first connection. -/
theorem calleeAdded {k : Call} {v : World} (absent : w.callee = none) (bare : added (some k) = [])
    (callee : v.callee = some k) (caller : v.caller = w.caller) : added (v.side dest) = added (w.side dest) := by
  cases dest with
  | caller =>
    change added (some v.caller) = added (some w.caller)
    rw [caller]
  | callee =>
    change added v.callee = added w.callee
    rw [callee,absent,bare]
    rfl

theorem movedConserved (moved : Moved lib w e u) (books : Conserved lib past w dest) :
    Conserved lib (past ++ [e]) u dest := by
  cases moved with
  | @asked x observer c fresh caller plain connection =>
    refine quiet books rfl (.refl _) rfl (putAdded .caller (d := c) rfl (freshAdded fresh ?_)) (fun _ => rfl)
    intro pc held
    exact (Option.some.inj (connection.symm.trans held)).symm
  | @unasked x observer c fresh caller plain connection =>
    exact quiet books rfl (.refl _) rfl (putAdded .caller (d := c) rfl (freshAdded fresh connection))
      (fun _ => rfl)
  | uncalled => exact quiet books rfl (.refl _) rfl (by cases dest <;> rfl) (fun _ => rfl)
  | unseen => exact quiet books rfl (.refl _) rfl (by cases dest <;> rfl) (fun _ => rfl)
  | @invited desc d waiting kept =>
    refine quiet books rfl ?_ rfl (putAdded .caller (d := d) rfl (keptAdded kept.connection)) (fun _ => rfl)
    rw [sentOther rfl]
    exact .refl _
  | offerFailed waiting => exact quiet books rfl (.refl _) rfl (by cases dest <;> rfl) (fun _ => rfl)
  | @answered desc k d pc there held waiting stored =>
    refine quiet books rfl ?_ rfl
      (putAdded .callee there (editedAdded (·.setLocal (some desc)) held rfl stored.connection)) (fun _ => rfl)
    rw [sentOther rfl]
    exact .refl _
  | answerFailed waiting => exact quiet books rfl (.refl _) rfl (by cases dest <;> rfl) (fun _ => rfl)
  | @gathered side candidate c d there gathering kept => exact reportConserved there kept.connection books
  | @streamed side stream added c d there kept =>
    obtain ⟨network,delivered,replies⟩ := putKeeps (w := w) side d
    refine quiet books rfl ?_ (by simp only [deliveredTo,delivered]) (putAdded side there (keptAdded kept.connection))
      (fun _ => by rw [replies])
    rw [inFlight.eq_1 dest (w.put _ side),network]
    exact .refl _
  | @offered offer x observer desc k inFlight absent reads known connection =>
    refine quiet books rfl (takenOther inFlight rfl) rfl (calleeAdded absent ?_ rfl rfl) (fun _ => rfl)
    rw [added,Option.bind_some,connection]
    rfl
  | @refused offer x observer k inFlight absent known connection =>
    refine quiet books rfl (takenOther inFlight rfl) rfl (calleeAdded absent ?_ rfl rfl) (fun _ => rfl)
    rw [added,Option.bind_some]
    cases held : k.pc with
    | none => rfl
    | some pc => rw [connection pc held]; rfl
  | @dropped offer x observer m inFlight absent =>
    exact quiet books rfl (takenOther inFlight rfl) rfl (by cases dest <;> rfl) (fun _ => rfl)
  | @joined answer desc pc d inFlight reads held stored =>
    exact quiet books rfl (takenOther inFlight rfl) rfl (putAdded .caller (d := d) rfl
      (editedAdded (fun pc => (pc.setLocal (some desc)).setRemote (lib.createSessionDescription .answer answer))
        held rfl stored.connection)) (fun _ => rfl)
  | @unread answer d inFlight unread kept =>
    exact quiet books rfl (takenOther inFlight rfl) rfl (putAdded .caller (d := d) rfl (keptAdded kept.connection))
      (fun _ => rfl)
  | @added side body c d pc candidate inFlight there held reads takes stored =>
    refine deliveryConserved (c := c) there inFlight (by simp) (fun _ => ⟨candidate,reads,?_⟩) books
    rw [added,added,Option.bind_some,Option.bind_some,held,stored.connection]
    rfl
  | @rejected side body c d pc inFlight there held refuses kept =>
    exact deliveryConserved (c := c) there inFlight (fun _ => keptAdded kept.connection) (by simp) books

end

/- In every run and for both ends: what the peer reported is in flight or was delivered,
what was delivered was accepted or rejected once, and the connection has added what it
accepted, in that order, and nothing else. -/
theorem candidatesConserved (lib : Library) (events : List Event) (w : World)
    (ok : run (step lib) World.start events = some w) (dest : Side) : Conserved lib events w dest := by
  have each : ∀ past v e u, (Roles v ∧ Conserved lib past v dest) → step lib v e = some u →
      Roles u ∧ Conserved lib (past ++ [e]) u dest := by
    intro past v e u ⟨roles,books⟩ next
    have moved := stepMoved roles next
    exact ⟨movedRoles roles moved,movedConserved moved books⟩
  have start : Conserved lib [] World.start dest := by cases dest <;> exact Tally.start
  exact (runHistory each ⟨startRoles,start⟩ ok).2

/- The callee's candidate after the 200, delivered to the caller. -/
theorem inOrderConserved : ∃ w,
    run (step Candidates.textLibrary) World.start (Candidates.following Candidates.textLibrary Candidates.offerText
      Candidates.answerText Candidates.host) = some w ∧ w.delivered ≠ [] ∧
    Conserved Candidates.textLibrary (Candidates.following Candidates.textLibrary Candidates.offerText
      Candidates.answerText Candidates.host) w .caller := by
  obtain ⟨w,ran,delivered,_⟩ := Candidates.followingRuns Candidates.answerText Candidates.host
    (Candidates.textsParse (.inl rfl) .offer)
  exact ⟨w,ran,by rw [delivered]; simp,candidatesConserved Candidates.textLibrary _ w ran .caller⟩

end RtcCall.Conservation
