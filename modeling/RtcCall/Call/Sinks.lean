import RtcCall.Lib.Runs
import RtcCall.Call.Descriptions

/-! The sinks of a Call, seen as a book: which sink each track sends its frames to,
and which one `sinks_` owns for it. A sink is attached before it is inserted, an
insertion at an existing key drops it, and removal leaves the entry. -/
namespace RtcCall.Sinks
open WebRtc Media Descriptions StepRuns

structure Book where
  sinks : List (Nat × Option SinkId)
  attached : List (Nat × SinkId)
  fresh : SinkId
  deriving DecidableEq, Repr

namespace Book

def keys (b : Book) : List Nat := b.sinks.map Prod.fst

/- The sink that is alive for the track. -/
def stored (a : Nat) (b : Book) : Option SinkId := (b.sinks.find? (·.1 == a)).bind (·.2)

def add (b : Book) (a : Nat) : Book :=
  {sinks := if b.sinks.any (·.1 == a) then b.sinks else b.sinks ++ [(a,some b.fresh)]
   attached := b.attached ++ [(a,b.fresh)]
   fresh := b.fresh+1}

def remove (b : Book) (a : Nat) : Book :=
  {b with
    sinks := if b.sinks.any (·.1 == a) then b.sinks else b.sinks ++ [(a,none)]
    attached := b.attached.filter (fun p => !(p.1 == a && some p.2 == b.stored a))}

/- The track is destroyed, and what was attached to it. -/
def died (b : Book) (a : Nat) : Book := {b with attached := b.attached.filter (·.1 != a)}

def addAll (as : List Nat) (b : Book) : Book := as.foldl add b

def removeAll (as : List Nat) (b : Book) : Book := as.foldl remove b

theorem anyKey {b : Book} {a : Nat} : b.sinks.any (·.1 == a) = true ↔ a ∈ b.keys := by
  simp only [keys,List.any_eq_true,beq_iff_eq,List.mem_map]

theorem storedKey {b : Book} {a : Nat} {s : SinkId} (held : b.stored a = some s) : a ∈ b.keys := by
  obtain ⟨p,found,_⟩ := Option.bind_eq_some_iff.mp held
  have matched := List.find?_some found
  exact anyKey.mp (List.any_eq_true.mpr ⟨p,List.mem_of_find?_eq_some found,matched⟩)

theorem findAbsent {b : Book} {a : Nat} (absent : a ∉ b.keys) : b.sinks.find? (·.1 == a) = none := by
  cases found : b.sinks.find? (·.1 == a) with
  | none => rfl
  | some p =>
    have matched := List.find?_some found
    exact absurd (anyKey.mp (List.any_eq_true.mpr ⟨p,List.mem_of_find?_eq_some found,matched⟩)) absent

theorem storedInserted {b : Book} {a k : Nat} {v : Option SinkId} (absent : a ∉ b.keys) :
    ((b.sinks ++ [(a,v)]).find? (·.1 == k)).bind (·.2) = if k = a then v else b.stored k := by
  rw [List.find?_append]
  by_cases same : k = a
  · subst same
    rw [findAbsent absent]
    simp
  · have other : (a == k) = false := by simpa using fun h : a = k => same h.symm
    rw [if_neg same,List.find?_cons,other]
    simp [stored]

theorem storedAdd (b : Book) (a k : Nat) : (b.add a).stored k =
    if a ∈ b.keys then b.stored k else if k = a then some b.fresh else b.stored k := by
  by_cases present : a ∈ b.keys
  · rw [if_pos present]
    simp only [add,stored,if_pos (anyKey.mpr present)]
  · have absent : ¬ b.sinks.any (·.1 == a) = true := fun found => present (anyKey.mp found)
    rw [if_neg present,← storedInserted present]
    simp only [add,stored,if_neg absent]

theorem storedRemove (b : Book) (a k : Nat) : (b.remove a).stored k = b.stored k := by
  by_cases present : a ∈ b.keys
  · simp only [remove,stored,if_pos (anyKey.mpr present)]
  · have absent : ¬ b.sinks.any (·.1 == a) = true := fun found => present (anyKey.mp found)
    have inserted := @storedInserted b a k none present
    simp only [remove,stored,if_neg absent] at inserted ⊢
    rw [inserted]
    split
    · rename_i same
      rw [same,findAbsent present]
      rfl
    · rfl

theorem storedRemoveAll (as : List Nat) (b : Book) (k : Nat) : (b.removeAll as).stored k = b.stored k := by
  induction as generalizing b with
  | nil => rfl
  | cons a rest ih =>
    change (removeAll rest (b.remove a)).stored k = _
    rw [ih,storedRemove]

/- Every attached sink is the live one of its track, and the only one there. -/
structure Kept (b : Book) : Prop where
  owned : ∀ a s, (a,s) ∈ b.attached → b.stored a = some s
  single : (b.attached.map Prod.fst).Nodup

/- Sinks are numbered as they are made. -/
structure Numbered (b : Book) : Prop where
  attached : ∀ a s, (a,s) ∈ b.attached → s < b.fresh
  stored : ∀ a s, b.stored a = some s → s < b.fresh

/- A track sends its frames to a sink that is not, or no longer, the one stored for it. -/
def Dangling (b : Book) : Prop := ∃ a s, (a,s) ∈ b.attached ∧ b.stored a ≠ some s

/- Tracks that were never added or asked for, each once. -/
def Unknown (as : List Nat) (b : Book) : Prop := as.Nodup ∧ ∀ a ∈ as, a ∉ b.keys
instance (as b) : Decidable (Unknown as b) := by unfold Unknown; infer_instance

theorem addNumbered {b : Book} (numbered : Numbered b) (a : Nat) : Numbered (b.add a) := by
  constructor
  · intro k s member
    rcases List.mem_append.mp member with old | new
    · exact Nat.lt_succ_of_lt (numbered.attached k s old)
    · cases List.mem_singleton.mp new
      exact Nat.lt_succ_self _
  · intro k s held
    rw [storedAdd] at held
    split at held
    · exact Nat.lt_succ_of_lt (numbered.stored k s held)
    · split at held
      · cases Option.some.inj held
        exact Nat.lt_succ_self _
      · exact Nat.lt_succ_of_lt (numbered.stored k s held)

theorem addKept {b : Book} {a : Nat} (kept : Kept b) (absent : a ∉ b.keys) : Kept (b.add a) := by
  constructor
  · intro k s member
    rw [storedAdd,if_neg absent]
    rcases List.mem_append.mp member with old | new
    · have held := kept.owned k s old
      have other : k ≠ a := fun same => absent (same ▸ storedKey held)
      rw [if_neg other]
      exact held
    · cases List.mem_singleton.mp new
      exact if_pos rfl
  · have apart : a ∉ b.attached.map Prod.fst := by
      intro member
      obtain ⟨p,attached,same⟩ := List.mem_map.mp member
      exact absent (same ▸ storedKey (kept.owned p.1 p.2 attached))
    simp only [add,List.map_append,List.map_cons,List.map_nil]
    refine List.nodup_append.mpr ⟨kept.single,List.pairwise_singleton _ a,?_⟩
    intro x member y last same
    rw [List.mem_singleton.mp last] at same
    exact apart (same ▸ member)

theorem keysAdd {b : Book} {a : Nat} (absent : a ∉ b.keys) : (b.add a).keys = b.keys ++ [a] := by
  have missing : ¬ b.sinks.any (·.1 == a) = true := fun found => absent (anyKey.mp found)
  simp only [add,keys,if_neg missing,List.map_append,List.map_cons,List.map_nil]

/- A sink that is attached and not stored stays so while tracks are added. -/
theorem addDangling {b : Book} (numbered : Numbered b) (a : Nat) (dangling : Dangling b) : Dangling (b.add a) := by
  obtain ⟨k,s,attached,lost⟩ := dangling
  refine ⟨k,s,List.mem_append_left _ attached,?_⟩
  rw [storedAdd]
  split
  · exact lost
  · split
    · intro same
      have bound := numbered.attached k s attached
      rw [Option.some.inj same] at bound
      exact absurd bound (Nat.lt_irrefl _)
    · exact lost

theorem addPresentDangling {b : Book} (numbered : Numbered b) {a : Nat} (present : a ∈ b.keys) :
    Dangling (b.add a) := by
  refine ⟨a,b.fresh,List.mem_append_right _ List.mem_cons_self,?_⟩
  rw [storedAdd,if_pos present]
  intro held
  exact absurd (numbered.stored a b.fresh held) (Nat.lt_irrefl _)

theorem addAllNumbered {b : Book} (numbered : Numbered b) (as : List Nat) : Numbered (b.addAll as) := by
  induction as generalizing b with
  | nil => exact numbered
  | cons a rest ih => exact ih (addNumbered numbered a)

theorem addAllDangling {b : Book} (numbered : Numbered b) (as : List Nat) (dangling : Dangling b) :
    Dangling (b.addAll as) := by
  induction as generalizing b with
  | nil => exact dangling
  | cons a rest ih => exact ih (addNumbered numbered a) (addDangling numbered a dangling)

theorem unknownRest {b : Book} {a : Nat} {rest : List Nat} :
    Unknown (a::rest) b ↔ a ∉ b.keys ∧ (a ∉ b.keys → Unknown rest (b.add a)) := by
  unfold Unknown
  constructor
  · intro unknown
    have absent := unknown.2 a List.mem_cons_self
    obtain ⟨apart,distinct⟩ := List.nodup_cons.mp unknown.1
    refine ⟨absent,fun _ => ⟨distinct,?_⟩⟩
    intro k member
    rw [keysAdd absent,List.mem_append,List.mem_singleton]
    rintro (old | same)
    · exact unknown.2 k (List.mem_cons_of_mem a member) old
    · exact apart (same ▸ member)
  · intro ⟨absent,later⟩
    obtain ⟨distinct,rest⟩ := later absent
    rw [keysAdd absent] at rest
    refine ⟨List.nodup_cons.mpr ⟨?_,distinct⟩,?_⟩
    · intro member
      exact rest a member (List.mem_append_right _ List.mem_cons_self)
    · intro k member
      rcases List.mem_cons.mp member with same | inside
      · rw [same]
        exact absent
      · exact fun old => rest k inside (List.mem_append_left _ old)

theorem addAllKept {b : Book} {as : List Nat} (kept : Kept b) (unknown : Unknown as b) : Kept (b.addAll as) := by
  induction as generalizing b with
  | nil => exact kept
  | cons a rest ih =>
    obtain ⟨absent,later⟩ := unknownRest.mp unknown
    exact ih (addKept kept absent) (later absent)

theorem addAllLost {b : Book} {as : List Nat} (numbered : Numbered b) (known : ¬ Unknown as b) :
    Dangling (b.addAll as) := by
  induction as generalizing b with
  | nil => exact absurd ⟨List.nodup_nil,by simp⟩ known
  | cons a rest ih =>
    by_cases absent : a ∈ b.keys
    · exact addAllDangling (addNumbered numbered a) rest (addPresentDangling numbered absent)
    · have later : ¬ Unknown rest (b.add a) := fun unknown => known (unknownRest.mpr ⟨absent,fun _ => unknown⟩)
      exact ih (addNumbered numbered a) later

theorem removeKept {b : Book} (kept : Kept b) (a : Nat) : Kept (b.remove a) := by
  constructor
  · intro k s member
    rw [storedRemove]
    exact kept.owned k s (List.mem_filter.mp member).1
  · exact kept.single.sublist (List.filter_sublist.map Prod.fst)

theorem removeNumbered {b : Book} (numbered : Numbered b) (a : Nat) : Numbered (b.remove a) := by
  constructor
  · intro k s member
    exact numbered.attached k s (List.mem_filter.mp member).1
  · intro k s held
    rw [storedRemove] at held
    exact numbered.stored k s held

theorem removeAllKept {b : Book} (kept : Kept b) (as : List Nat) : Kept (b.removeAll as) := by
  induction as generalizing b with
  | nil => exact kept
  | cons a rest ih => exact ih (removeKept kept a)

theorem removeAllNumbered {b : Book} (numbered : Numbered b) (as : List Nat) : Numbered (b.removeAll as) := by
  induction as generalizing b with
  | nil => exact numbered
  | cons a rest ih => exact ih (removeNumbered numbered a)

theorem diedKept {b : Book} (kept : Kept b) (a : Nat) : Kept (b.died a) := by
  constructor
  · intro k s member
    exact kept.owned k s (List.mem_filter.mp member).1
  · exact kept.single.sublist (List.filter_sublist.map Prod.fst)

theorem diedNumbered {b : Book} (numbered : Numbered b) (a : Nat) : Numbered (b.died a) :=
  ⟨fun k s member => numbered.attached k s (List.mem_filter.mp member).1,numbered.stored⟩

/- Adding other tracks leaves a track's sink alone. -/
theorem addAllStored {b : Book} {as : List Nat} {k : Nat} (other : k ∉ as) : (b.addAll as).stored k = b.stored k := by
  induction as generalizing b with
  | nil => rfl
  | cons a rest ih =>
    have apart : k ≠ a := fun same => other (same ▸ List.mem_cons_self)
    change (addAll rest (b.add a)).stored k = _
    rw [ih (fun inside => other (List.mem_cons_of_mem a inside)),storedAdd,if_neg apart,ite_self]

end Book

def Call.book (c : Call) : Book := ⟨c.sinks,c.attached,c.freshSink⟩

theorem addSinkBook (track : Track) (c : Call) : Call.book (c.addSink track) = (Call.book c).add track.address := rfl

theorem removeSinkBook (track : Track) (c : Call) :
    Call.book (c.removeSink track) = (Call.book c).remove track.address := rfl

def addresses (tracks : List Track) : List Nat := tracks.map Track.address

/- The track that CreatePeerConnectionAndStreams adds. -/
def localTracks (x : Creation) : List Track := match x.device with
  | none => []
  | some track => if x.addTrack then [track] else []

theorem creationBook (x : Creation) (c : Call) :
    Call.book (afterCreation x c) = (Call.book c).addAll (addresses (localTracks x)) := by
  obtain ⟨connection,device,addTrack,addStream⟩ := x
  cases device with
  | none => rfl
  | some track => cases addTrack <;> rfl

theorem addStreamsBook {label : Bytes} {tracks : List Track} {c d : Call} {u : Unit}
    (ok : addStreams label tracks c = .ok (u,d)) : Call.book d = (Call.book c).addAll (addresses tracks) := by
  induction tracks generalizing c with
  | nil =>
    rw [(pureOk.mp ok).2]
    rfl
  | cons track rest ih =>
    obtain ⟨_,m,added,later⟩ := bindOk.mp ok
    cases (addStreamOk.mp added).2
    rw [ih later,addSinkBook]
    rfl

theorem removeTracksBook (tracks : List Track) (c : Call) :
    Call.book (tracks.foldl (fun c track => c.removeSink track) c) = (Call.book c).removeAll (addresses tracks) := by
  induction tracks generalizing c with
  | nil => rfl
  | cons track rest ih =>
    rw [List.foldl_cons,ih,removeSinkBook]
    rfl

theorem offerBook {lib : Library} {x : Creation} {offer : Bytes} {c d : Call} {u : Unit}
    (ok : onOffer lib x offer c = .ok (u,d)) :
    Call.book d = (Call.book c).addAll (addresses (localTracks x)) := by
  rw [offerRuns] at ok
  split at ok <;> try contradiction
  split at ok
  · cases ok
    exact creationBook x c
  · split at ok <;> try contradiction
    cases ok
    exact creationBook x c

theorem initCallerBook {x : Creation} {observer b : Bool} {c d : Call} (ok : initCaller x observer c = .ok (b,d)) :
    Call.book d = (Call.book c).addAll (addresses (localTracks x)) := by
  rw [initCallerRuns] at ok
  split at ok <;> try contradiction
  split at ok
  · cases ok
    exact creationBook x _
  · cases ok
    exact creationBook x _

/- `removed` are the tracks whose stream was removed and that were not added since; it
is observed, never read by the program. -/
structure World where
  call : Call
  removed : List Nat
  deriving DecidableEq, Repr

def World.start (pcFactory observer : Bool) : World := ⟨{Call.new pcFactory with observer := observer},[]⟩

inductive Event where
  | initCaller (x : Creation) (observer : Bool)
  | initCallee
  | setObserver (observer : Bool)
  | offer (x : Creation) (text : Bytes)
  | onAddStream (stream : Stream)
  | onRemoveStream (stream : Stream)
  | trackDied (address : Nat)
  deriving DecidableEq, Repr

/- A callback that dereferences a null member ends the run. -/
def perform {α : Type} (f : CallM α) (added removed : List Track) (w : World) : Option World :=
  match f w.call with
  | .ok (_,d) => some ⟨d,w.removed.filter (· ∉ addresses added) ++ addresses removed⟩
  | .error _ => none

def step (lib : Library) (w : World) : Event → Option World
  | .initCaller x observer => perform (initCaller x observer) (localTracks x) [] w
  | .initCallee => perform initCallee [] [] w
  | .setObserver observer => perform (setObserver observer) [] [] w
  | .offer x text => perform (onOffer lib x text) (localTracks x) [] w
  | .onAddStream stream => perform (onAddStream stream) stream.videoTracks [] w
  | .onRemoveStream stream => perform (onRemoveStream stream) [] stream.videoTracks w
  | .trackDied a => some {w with call := {w.call with attached := w.call.attached.filter (·.1 != a)}}

/- Neither the track nor `sinks_` keeps a sink after its stream was removed. -/
def Gone (w : World) : Prop := ∀ a ∈ w.removed, (∀ s, (a,s) ∉ w.call.attached) ∧ (Call.book w.call).stored a = none

def SinksKept (w : World) : Prop := (Call.book w.call).Kept ∧ Gone w

/- A track is added once in the life of the Call, at an address never seen before, and
no stream is removed whose track has a sink. -/
def AddedOnce (w : World) : Event → Prop
  | .initCaller x _ | .offer x _ => Book.Unknown (addresses (localTracks x)) (Call.book w.call)
  | .onAddStream stream => Book.Unknown (addresses stream.videoTracks) (Call.book w.call)
  | .onRemoveStream stream => ∀ a ∈ addresses stream.videoTracks, (Call.book w.call).stored a = none
  | .initCallee | .setObserver _ | .trackDied _ => True
instance (w e) : Decidable (AddedOnce w e) := by cases e <;> unfold AddedOnce <;> infer_instance

structure Inv (w : World) : Prop where
  kept : (Call.book w.call).Kept
  numbered : (Call.book w.call).Numbered
  gone : Gone w

/- What a callback does to the book and to the record of removed tracks. -/
structure Moves (w u : World) (added removed : List Track) : Prop where
  book : Call.book u.call = ((Call.book w.call).addAll (addresses added)).removeAll (addresses removed)
  removed : u.removed = w.removed.filter (· ∉ addresses added) ++ addresses removed

theorem performMoves {α : Type} {f : CallM α} {added removed : List Track} {w u : World}
    (book : ∀ b d, f w.call = .ok (b,d) →
      Call.book d = ((Call.book w.call).addAll (addresses added)).removeAll (addresses removed))
    (ok : perform f added removed w = some u) : Moves w u added removed := by
  unfold perform at ok
  split at ok <;> try contradiction
  rename_i b d ran
  cases Option.some.inj ok
  exact ⟨book b d ran,rfl⟩

theorem addedInv {w u : World} {added : List Track} (inv : Inv w) (moves : Moves w u added [])
    (unknown : Book.Unknown (addresses added) (Call.book w.call)) : Inv u := by
  have book : Call.book u.call = (Call.book w.call).addAll (addresses added) := moves.book
  have kept : (Call.book u.call).Kept := by
    rw [book]
    exact Book.addAllKept inv.kept unknown
  refine ⟨kept,by rw [book]; exact Book.addAllNumbered inv.numbered _,?_⟩
  intro a member
  rw [moves.removed,show addresses [] = [] from rfl,List.append_nil] at member
  have left := List.mem_filter.mp member
  have other : a ∉ addresses added := by simpa using left.2
  have stored : (Call.book u.call).stored a = none := by
    rw [book,Book.addAllStored other]
    exact (inv.gone a left.1).2
  refine ⟨fun s attached => ?_,stored⟩
  have held := kept.owned a s attached
  rw [stored] at held
  cases held

theorem removedInv {w u : World} {removed : List Track} (inv : Inv w) (moves : Moves w u [] removed)
    (absent : ∀ a ∈ addresses removed, (Call.book w.call).stored a = none) : Inv u := by
  have book : Call.book u.call = (Call.book w.call).removeAll (addresses removed) := moves.book
  have kept : (Call.book u.call).Kept := by
    rw [book]
    exact Book.removeAllKept inv.kept _
  refine ⟨kept,by rw [book]; exact Book.removeAllNumbered inv.numbered _,?_⟩
  intro a member
  rw [moves.removed,List.mem_append] at member
  have stored : (Call.book u.call).stored a = none := by
    rw [book,Book.storedRemoveAll]
    rcases member with old | new
    · exact (inv.gone a (List.mem_filter.mp old).1).2
    · exact absent a new
  refine ⟨fun s attached => ?_,stored⟩
  have held := kept.owned a s attached
  rw [stored] at held
  cases held

theorem addedLost {w u : World} {added : List Track} (inv : Inv w) (moves : Moves w u added [])
    (known : ¬ Book.Unknown (addresses added) (Call.book w.call)) : ¬ SinksKept u := by
  intro safe
  have lost := Book.addAllLost inv.numbered known
  have book : Call.book u.call = (Call.book w.call).addAll (addresses added) := moves.book
  rw [← book] at lost
  obtain ⟨a,s,attached,other⟩ := lost
  exact other (safe.1.owned a s attached)

theorem removedLost {w u : World} {removed : List Track} (moves : Moves w u [] removed)
    (present : ¬ ∀ a ∈ addresses removed, (Call.book w.call).stored a = none) : ¬ SinksKept u := by
  intro safe
  apply present
  intro a member
  have book : Call.book u.call = (Call.book w.call).removeAll (addresses removed) := moves.book
  have stored := (safe.2 a (by rw [moves.removed]; exact List.mem_append_right _ member)).2
  rw [book,Book.storedRemoveAll] at stored
  exact stored

/- The tracks an event adds and removes. -/
def Event.added : Event → List Track
  | .initCaller x _ | .offer x _ => localTracks x
  | .onAddStream stream => stream.videoTracks
  | .initCallee | .setObserver _ | .onRemoveStream _ | .trackDied _ => []

def Event.removed : Event → List Track
  | .onRemoveStream stream => stream.videoTracks
  | .initCaller _ _ | .initCallee | .offer _ _ | .onAddStream _ | .setObserver _ | .trackDied _ => []

theorem stepMoves {lib : Library} {w u : World} {e : Event} (ok : step lib w e = some u)
    (alive : ∀ a, e ≠ .trackDied a) : Moves w u e.added e.removed := by
  cases e with
  | initCaller x observer => exact performMoves (fun _ _ ran => initCallerBook ran) ok
  | initCallee =>
    refine performMoves (f := initCallee) (fun _ d ran => ?_) ok
    obtain ⟨_,m,named,last⟩ := bindOk.mp ran
    rw [(pureOk.mp last).2,modifyOk.mp named]
    rfl
  | setObserver observer =>
    refine performMoves (f := setObserver observer) (fun _ d ran => ?_) ok
    cases modifyOk.mp ran
    rfl
  | offer x text => exact performMoves (fun _ _ ran => offerBook ran) ok
  | onAddStream stream => exact performMoves (fun _ _ ran => addStreamsBook ran) ok
  | onRemoveStream stream =>
    refine performMoves (f := onRemoveStream stream) (fun _ d ran => ?_) ok
    cases modifyOk.mp ran
    exact removeTracksBook stream.videoTracks w.call
  | trackDied a => exact absurd rfl (alive a)

theorem diedInv {w : World} (inv : Inv w) (a : Nat) :
    Inv {w with call := {w.call with attached := w.call.attached.filter (·.1 != a)}} := by
  refine ⟨Book.diedKept inv.kept a,Book.diedNumbered inv.numbered a,?_⟩
  intro k member
  exact ⟨fun s attached => (inv.gone k member).1 s (List.mem_filter.mp attached).1,(inv.gone k member).2⟩

theorem keepsInv (lib : Library) : Keeps (step lib) (fun w e => True ∧ AddedOnce w e) Inv := by
  intro w e u inv once ok
  have nobody : Book.Unknown (addresses []) (Call.book w.call) := ⟨List.nodup_nil,by simp [addresses]⟩
  cases e with
  | initCaller x observer => exact addedInv inv (stepMoves ok (by simp)) once.2
  | offer x text => exact addedInv inv (stepMoves ok (by simp)) once.2
  | onAddStream stream => exact addedInv inv (stepMoves ok (by simp)) once.2
  | onRemoveStream stream => exact removedInv inv (stepMoves ok (by simp)) once.2
  | initCallee => exact addedInv inv (stepMoves ok (by simp)) nobody
  | setObserver observer => exact addedInv inv (stepMoves ok (by simp)) nobody
  | trackDied a =>
    cases Option.some.inj ok
    exact diedInv inv a

theorem breaksKept {lib : Library} {w u : World} {e : Event} (inv : Inv w) (other : ¬ AddedOnce w e)
    (ok : step lib w e = some u) : ¬ SinksKept u := by
  cases e with
  | initCaller x observer => exact addedLost inv (stepMoves ok (by simp)) other
  | offer x text => exact addedLost inv (stepMoves ok (by simp)) other
  | onAddStream stream => exact addedLost inv (stepMoves ok (by simp)) other
  | onRemoveStream stream => exact removedLost (stepMoves ok (by simp)) other
  | initCallee => exact absurd trivial other
  | setObserver observer => exact absurd trivial other
  | trackDied a => exact absurd trivial other

/- The bookkeeping holds in every state of a run exactly when every track is added once
and no stream with a sink is removed. -/
theorem sinksKeptExactly (lib : Library) (pcFactory observer : Bool) (events : List Event) :
    Visits (step lib) SinksKept (World.start pcFactory observer) events ↔
      Meets (step lib) AddedOnce (World.start pcFactory observer) events := by
  have start : Inv (World.start pcFactory observer) := by
    refine ⟨⟨?_,List.nodup_nil⟩,⟨?_,?_⟩,?_⟩
    · intro a s member
      cases member
    · intro a s member
      cases member
    · intro a s held
      cases held
    · intro a member
      cases member
  exact visitsIffMeets (keepsInv lib) (fun w inv => ⟨inv.kept,inv.gone⟩)
    (fun w e u inv _ other ok => breaksKept inv other ok) start (meetsOfEvents (fun _ _ _ => trivial) _)

def remoteTrack : Track := ⟨7,true,ascii "video"⟩

def remoteStream : Stream := ⟨ascii "stream2",[remoteTrack]⟩

/- After the removal `sinks_` still keeps the sink; when the track is added again, its
new sink is attached and dropped. -/
theorem sinksLost :
    ¬ Visits (step strictLibrary) SinksKept (World.start true true)
      [.onAddStream remoteStream,.onRemoveStream remoteStream] ∧
    ∃ w, run (step strictLibrary) (World.start true true)
        [.onAddStream remoteStream,.onRemoveStream remoteStream,.onAddStream remoteStream] = some w ∧
      w.call.attached = [(7,1)] ∧ (Call.book w.call).stored 7 = some 0 ∧ ¬ SinksKept w := by
  constructor
  · intro visits
    have last := visitsLast visits rfl
    have left := (last.2 7 (by decide)).2
    revert left
    decide
  · refine ⟨_,rfl,rfl,rfl,?_⟩
    intro kept
    have owned := kept.1.owned 7 1 (by decide)
    revert owned
    decide

end RtcCall.Sinks
