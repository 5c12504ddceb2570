import RtcCall.Lib.Runs
import RtcCall.Call.Messages
import RtcCall.Call.Descriptions

/-! A CallUser, which logs in before it has its factory, and its Calls. The steps of
Initialize, the DUM's callbacks and WebRTC's notifications come in any order; a null
member that is dereferenced is recorded and ends the run. -/
namespace RtcCall.Components
open WebRtc Media Descriptions Messages StepRuns
open CallContext (Role)
open Candidates (textLibrary offerText host hostText)

/- Where CallUser::Initialize stands. -/
inductive Phase where | created | sessionCreated | loggedIn | ready | failed deriving DecidableEq, Repr

/- `connected` says that the Call has been given a connection, `requests` counts the
notifications to come for CreateOffer and CreateAnswer. The Call lives while `callees_`
or the application holds it. -/
structure Member where
  role : Role
  call : Call
  connected : Bool
  requests : Nat
  inCallees : Bool
  kept : Bool
  deriving DecidableEq, Repr

def Member.alive (m : Member) : Bool := m.inCallees || m.kept

def requested (es : List Effect) : Nat := es.countP (fun e => e == .createOffer || e == .createAnswer)

def Member.absorb (m : Member) (d : Call) : Member :=
  {m with
    call := {d with outbox := []}
    connected := m.connected || d.pc.isSome
    requests := m.requests + requested d.outbox}

/- `onCallee` is the callee whose OnCallee the application is running, on the DUM thread. -/
structure World where
  phase : Phase
  pcFactory : Bool
  calls : List Member
  onCallee : Option Nat
  missing : Option Missing
  deriving DecidableEq, Repr

def World.start : World := ⟨.created,false,[],none,none⟩

inductive Event where
  | createSessionUser (ok : Bool)
  | login
  | createFactory (ok : Bool)
  | makeCall (x : Creation)
  | onCallee (kept : Bool)
  | setObserver
  | onOffer (i : Nat) (offer : Bytes) (x : Creation)
  | onAnswer (i : Nat) (localSdp : Option Bytes) (answer : Bytes)
  | onMessage (i : Nat) (msg : Contents)
  | onTerminated (i : Nat)
  | descriptionCreated (i : Nat) (desc : Description)
  | descriptionFailed (i : Nat)
  | descriptionSet (i : Nat) (remote success : Bool)
  | onIceCandidate (i : Nat) (candidate : Candidate)
  | onAddStream (i : Nat) (stream : Stream)
  | onRemoveStream (i : Nat) (stream : Stream)
  | release (i : Nat)
  deriving DecidableEq, Repr

def perform {α : Type} (i : Nat) (enabled : Member → Bool) (take : Member → Member) (f : CallM α) (w : World) :
    Option World := match w.calls[i]? with
  | some m =>
    if enabled m then match f m.call with
      | .ok (_,d) => some {w with calls := w.calls.set i ((take m).absorb d)}
      | .error missing => some {w with missing := some missing}
    else none
  | none => none

/- The DUM reports when no callback of its is running. -/
def onDum (next : World → Option World) (w : World) : Option World := if w.onCallee = none then next w else none

/- MakeCall is the application's, which has the user only after Initialize; it gives
every call an observer. -/
def makeCall (x : Creation) (w : World) : World := match initCaller x true (Call.new w.pcFactory) with
  | .ok (true,d) => {w with calls := w.calls ++ [Member.absorb ⟨.caller,Call.new w.pcFactory,false,0,false,true⟩ d]}
  | .ok (false,_) => w
  | .error missing => {w with missing := some missing}

def calleeCreated (kept : Bool) (w : World) : World := match initCallee (Call.new w.pcFactory) with
  | .ok (_,d) => {w with
      calls := w.calls ++ [Member.absorb ⟨.callee,Call.new w.pcFactory,false,0,true,kept⟩ d]
      onCallee := some w.calls.length}
  | .error missing => {w with missing := some missing}

/- Create drops a user whose Initialize fails, and its callees with it. -/
def abandon (w : World) : World :=
  {w with phase := .failed, calls := w.calls.map (fun m => {m with inCallees := false})}

def act (lib : Library) (w : World) : Event → Option World
  | .createSessionUser ok =>
    if w.phase = .created then some {w with phase := if ok then .sessionCreated else .failed} else none
  | .login => if w.phase = .sessionCreated then some {w with phase := .loggedIn} else none
  | .createFactory ok =>
    if w.phase = .loggedIn then some (if ok then {w with phase := .ready, pcFactory := true} else abandon w) else none
  | .makeCall x => if w.phase = .ready then some (makeCall x w) else none
  | .onCallee kept =>
    if w.phase = .created ∨ w.phase = .failed then none else onDum (fun w => some (calleeCreated kept w)) w
  | .setObserver => match w.onCallee with
    | some i => (perform i (fun _ => true) id (setObserver true) w).map (fun w => {w with onCallee := none})
    | none => none
  | .onOffer i offer x => onDum (perform i (fun m => m.alive && m.role == .callee) id (onOffer lib x offer)) w
  | .onAnswer i localSdp answer =>
    onDum (perform i (fun m => m.alive && m.role == .caller) id (onAnswer lib localSdp answer)) w
  | .onMessage i msg => onDum (perform i Member.alive id (onMessage lib msg)) w
  | .onTerminated i => onDum (perform i Member.alive
      (fun m => if m.call.callee then {m with inCallees := false} else m) (pure () : CallM Unit)) w
  | .descriptionCreated i desc => perform i (fun m => m.alive && 0 < m.requests)
      (fun m => {m with requests := m.requests-1}) (onCreateSessionDescriptionSuccess desc) w
  | .descriptionFailed i => perform i (fun m => m.alive && 0 < m.requests)
      (fun m => {m with requests := m.requests-1}) onCreateSessionDescriptionFailure w
  | .descriptionSet i remote success => perform i (fun m => m.alive && m.connected) id
      (if success then onSetSessionDescriptionSuccess remote else onSetSessionDescriptionFailure remote) w
  | .onIceCandidate i candidate =>
    perform i (fun m => m.alive && m.connected) id (onIceCandidate lib candidate) w
  | .onAddStream i stream => perform i (fun m => m.alive && m.connected) id (onAddStream stream) w
  | .onRemoveStream i stream => perform i (fun m => m.alive && m.connected) id (onRemoveStream stream) w
  | .release i => match w.calls[i]? with
    | some m => if m.kept then some {w with calls := w.calls.set i {m with kept := false}} else none
    | none => none

def step (lib : Library) (w : World) (e : Event) : Option World :=
  if w.missing = none then act lib w e else none

/- An offer reaches a Call that was created with a factory, a connection is made
wherever its streams are, and a candidate and an answer find the connection. -/
def Supplied (lib : Library) (w : World) : Event → Prop
  | .makeCall x => x.addTrack = true → x.connection = true
  | .onOffer i _ x => ∀ m ∈ w.calls[i]?, m.call.pcFactory = true ∧ (x.addTrack = true → x.connection = true)
  | .onMessage i msg => ∀ m ∈ w.calls[i]?, (readCandidate lib msg).isSome = true → m.call.pc.isSome = true
  | .descriptionCreated i _ => ∀ m ∈ w.calls[i]?, m.role = .callee → m.call.pc.isSome = true
  | _ => True

/-! What each callback leaves of the members, and when it finds them. -/

/- The members that are set once. -/
structure Stays (c d : Call) : Prop where
  caller : d.caller = c.caller
  callee : d.callee = c.callee
  observer : d.observer = c.observer
  pc : c.callee = false → c.pc.isSome = true → d.pc.isSome = true

theorem staysRefl (c : Call) : Stays c c := ⟨rfl,rfl,rfl,fun _ held => held⟩

theorem staysSame (c : Call) (es : List Effect) : Stays c {c with outbox := es} :=
  ⟨rfl,rfl,rfl,fun _ held => held⟩

section
variable {lib : Library} {c d : Call}

/- With an observer, only the factory or the connection may be missing. -/
theorem observedLacks {x : Creation} (observer : c.observer = true) :
    lacks x c = none ↔ c.pcFactory = true ∧ (x.addTrack = true → x.connection = true) := by
  rw [lacksIff,observer]
  simp

theorem offerNeeds {x : Creation} {offer : Bytes} {u : Unit} (observer : c.observer = true)
    (ok : onOffer lib x offer c = .ok (u,d)) :
    c.pcFactory = true ∧ (x.addTrack = true → x.connection = true) := by
  rw [offerRuns] at ok
  split at ok <;> try contradiction
  rename_i made
  exact (observedLacks observer).mp made

theorem offerStays {x : Creation} {offer : Bytes} {u : Unit} (callee : c.callee = true)
    (ok : onOffer lib x offer c = .ok (u,d)) : Stays c d := by
  obtain ⟨calleeKept,callerKept,_,observerKept⟩ := withStreamKeeps x c
  have other : c.callee = false → c.pc.isSome = true → d.pc.isSome = true := by
    intro absent
    rw [callee] at absent
    cases absent
  rw [offerRuns] at ok
  split at ok <;> try contradiction
  split at ok
  · cases ok
    exact ⟨callerKept,calleeKept,observerKept,other⟩
  · split at ok <;> try contradiction
    cases ok
    exact ⟨callerKept,calleeKept,observerKept,other⟩

theorem offerReturns {x : Creation} {offer : Bytes} (callee : c.callee = true) (observer : c.observer = true)
    (supplied : c.pcFactory = true ∧ (x.addTrack = true → x.connection = true)) :
    ∃ d, onOffer lib x offer c = .ok (⟨⟩,d) := by
  rw [offerRuns,(observedLacks observer).mpr supplied,callee]
  cases offerTaken lib x offer with
  | none => exact ⟨_,rfl⟩
  | some desc => exact ⟨_,rfl⟩

theorem answerReturns {localSdp : Option Bytes} {answer : Bytes} (caller : c.caller = true)
    (held : c.pc.isSome = true) : ∃ d, onAnswer lib localSdp answer c = .ok (⟨⟩,d) := by
  obtain ⟨pc,held⟩ := Option.isSome_iff_exists.mp held
  rw [answerRuns,caller,held]
  cases localSdp.bind (lib.createSessionDescription .offer) with
  | none => exact ⟨_,rfl⟩
  | some localDesc => exact ⟨_,rfl⟩

theorem answerStays {localSdp : Option Bytes} {answer : Bytes} {u : Unit}
    (ok : onAnswer lib localSdp answer c = .ok (u,d)) : Stays c d := by
  rw [answerRuns] at ok
  split at ok <;> try contradiction
  split at ok
  · cases ok
    exact staysRefl c
  · split at ok <;> try contradiction
    cases ok
    exact ⟨rfl,rfl,rfl,fun _ _ => rfl⟩

theorem messageNeeds {msg : Contents} {u : Unit} (ok : onMessage lib msg c = .ok (u,d))
    (read : (readCandidate lib msg).isSome = true) : c.pc.isSome = true := by
  rcases messageExact ok with ⟨_,_,_,held,_⟩ | ⟨_,refuses⟩
  · rw [held]
    rfl
  · obtain ⟨candidate,read⟩ := Option.isSome_iff_exists.mp read
    obtain ⟨pc,held,_⟩ := refuses candidate read
    rw [held]
    rfl

theorem messageStays {msg : Contents} {u : Unit} (ok : onMessage lib msg c = .ok (u,d)) : Stays c d := by
  rcases messageExact ok with ⟨_,_,_,_,_,same⟩ | ⟨same,_⟩
  · rw [same]
    exact ⟨rfl,rfl,rfl,fun _ _ => rfl⟩
  · rw [same]
    exact staysSame c _

theorem messageAnswered {msg : Contents} (named : c.holds .call = true)
    (supplied : (readCandidate lib msg).isSome = true → c.pc.isSome = true) :
    ∃ d, onMessage lib msg c = .ok (⟨⟩,d) := by
  cases held : c.pc with
  | some pc => exact messageReturns held named
  | none =>
    rw [messageRuns]
    cases read : readCandidate lib msg with
    | none => exact ⟨_,if_pos named⟩
    | some candidate =>
      rw [read,held] at supplied
      exact absurd (supplied rfl) (by decide)

theorem describedNeeds {desc : Description} {u : Unit}
    (ok : onCreateSessionDescriptionSuccess desc c = .ok (u,d)) (callee : c.callee = true) : c.pc.isSome = true := by
  rcases describedExact ok with ⟨other,_⟩ | ⟨_,pc,held,_⟩
  · rw [callee] at other
    cases other
  · rw [held]
    rfl

theorem describedStays {desc : Description} {u : Unit}
    (ok : onCreateSessionDescriptionSuccess desc c = .ok (u,d)) : Stays c d := by
  rcases describedExact ok with ⟨_,same⟩ | ⟨_,_,_,same⟩
  · rw [same]
    exact staysSame c _
  · rw [same]
    exact ⟨rfl,rfl,rfl,fun _ _ => rfl⟩

theorem describedReturns {desc : Description} (supplied : c.callee = true → c.pc.isSome = true) :
    ∃ d, onCreateSessionDescriptionSuccess desc c = .ok (⟨⟩,d) := by
  rw [describedRuns]
  split
  · rename_i callee
    obtain ⟨pc,held⟩ := Option.isSome_iff_exists.mp (supplied callee)
    rw [held]
    exact ⟨_,rfl⟩
  · exact ⟨_,rfl⟩

theorem addStreamsStay {label : Bytes} {tracks : List Track} {u : Unit}
    (ok : addStreams label tracks c = .ok (u,d)) : Stays c d := by
  obtain ⟨caller,callee,pc,observer,_⟩ := addStreamsExact ok
  exact ⟨caller,callee,observer,fun _ held => pc ▸ held⟩

theorem removeStreamStays {stream : Stream} {u : Unit} (ok : onRemoveStream stream c = .ok (u,d)) : Stays c d := by
  obtain ⟨caller,callee,pc,observer,_⟩ := removeStreamExact ok
  exact ⟨caller,callee,observer,fun _ held => pc ▸ held⟩

theorem initCallerNeeds {x : Creation} {b : Bool} (ok : initCaller x true c = .ok (b,d)) :
    x.addTrack = true → x.connection = true := by
  rw [initCallerRuns] at ok
  split at ok <;> try contradiction
  rename_i made
  exact fun tracked => connectionMade made tracked

theorem initCallerReturns {x : Creation} (factory : c.pcFactory = true)
    (supplied : x.addTrack = true → x.connection = true) : ∃ b d, initCaller x true c = .ok (b,d) := by
  have made : lacks x {c with observer := true} = none := (observedLacks rfl).mpr ⟨factory,supplied⟩
  rw [initCallerRuns,made]
  cases streams : x.addTrack && x.addStream with
  | true => exact ⟨_,_,rfl⟩
  | false => exact ⟨_,_,rfl⟩

/- A caller that is handed out has its connection. -/
theorem initCallerStays {x : Creation} (ok : initCaller x true c = .ok (true,d)) :
    d.caller = true ∧ d.callee = c.callee ∧ d.observer = true ∧ d.pc.isSome = true := by
  rw [initCallerRuns] at ok
  split at ok <;> try contradiction
  rename_i made
  split at ok
  · rename_i streams
    rw [Bool.and_eq_true] at streams
    have held : (afterCreation x {c with observer := true}).pc = some (.new c.pc) :=
      if_pos (connectionMade made streams.1)
    obtain ⟨callee,_,_,observer⟩ := withStreamKeeps x {c with observer := true}
    cases ok
    exact ⟨rfl,callee,observer,by rw [held]; rfl⟩
  · cases ok

end

/-! The invariant. `observing` is false only while OnCallee of the application runs. -/

structure Fit (observing : Prop) (m : Member) : Prop where
  caller : m.call.caller = (m.role == .caller)
  callee : m.call.callee = (m.role == .callee)
  connection : m.role = .caller → m.call.pc.isSome = true
  observer : observing → m.call.observer = true
  fresh : ¬ observing → m.connected = false ∧ m.requests = 0

structure Inv (w : World) : Prop where
  fit : ∀ (i : Nat) (m : Member), w.calls[i]? = some m → Fit (w.onCallee ≠ some i) m
  inside : ∀ i, w.onCallee = some i → i < w.calls.length
  factory : w.phase = .ready → w.pcFactory = true
  present : w.missing = none

def NothingMissing (w : World) : Prop := w.missing = none
instance (w) : Decidable (NothingMissing w) := by unfold NothingMissing; infer_instance

section
variable {w u : World} {i : Nat}

theorem performCases {α : Type} {enabled : Member → Bool} {take : Member → Member} {f : CallM α}
    (ok : perform i enabled take f w = some u) : ∃ m, w.calls[i]? = some m ∧ enabled m = true ∧
      ((∃ b d, f m.call = .ok (b,d) ∧ u = {w with calls := w.calls.set i ((take m).absorb d)}) ∨
        ∃ missing, f m.call = .error missing ∧ u = {w with missing := some missing}) := by
  unfold perform at ok
  split at ok <;> try contradiction
  rename_i m found
  split at ok <;> try contradiction
  rename_i ready
  split at ok
  · rename_i b d ran
    exact ⟨m,found,ready,.inl ⟨b,d,ran,(Option.some.inj ok).symm⟩⟩
  · rename_i missing ran
    exact ⟨m,found,ready,.inr ⟨missing,ran,(Option.some.inj ok).symm⟩⟩

theorem editFit {m n : Member} (inv : Inv w) (found : w.calls[i]? = some m)
    (own : Fit (w.onCallee ≠ some i) m → Fit (w.onCallee ≠ some i) n) : Inv {w with calls := w.calls.set i n} := by
  refine ⟨?_,?_,inv.factory,inv.present⟩
  · intro j k held
    rw [List.getElem?_set] at held
    split at held
    · rename_i same
      split at held <;> try contradiction
      cases Option.some.inj held
      subst same
      exact own (inv.fit i m found)
    · exact inv.fit j k held
  · intro j running
    rw [List.length_set]
    exact inv.inside j running

/- A callback that finds what it needs and keeps the members. -/
theorem performInv {α : Type} {enabled : Member → Bool} {take : Member → Member} {f : CallM α} (inv : Inv w)
    (ok : perform i enabled take f w = some u) (role : ∀ m, (take m).role = m.role)
    (sound : ∀ m, w.calls[i]? = some m → enabled m = true →
      w.onCallee ≠ some i ∧ (∃ r, f m.call = .ok r) ∧ ∀ b d, f m.call = .ok (b,d) → Stays m.call d) : Inv u := by
  obtain ⟨m,found,ready,outcome⟩ := performCases ok
  obtain ⟨observing,⟨r,returns⟩,stays⟩ := sound m found ready
  rcases outcome with ⟨b,d,ran,same⟩ | ⟨missing,ran,_⟩
  · subst same
    refine editFit inv found (fun own => ?_)
    have kept := stays b d ran
    refine ⟨?_,?_,?_,?_,fun other => absurd observing other⟩
    · rw [Member.absorb,role]
      exact kept.caller.trans own.caller
    · rw [Member.absorb,role]
      exact kept.callee.trans own.callee
    · intro caller
      have caller : m.role = .caller := (role m).symm.trans caller
      have callee : m.call.callee = false := by rw [own.callee,caller]; rfl
      exact kept.pc callee (own.connection caller)
    · intro _
      exact kept.observer.trans (own.observer observing)
  · rw [returns] at ran
    cases ran

theorem onDumExact {next : World → Option World} (ok : onDum next w = some u) :
    w.onCallee = none ∧ next w = some u := by
  unfold onDum at ok
  split at ok <;> try contradiction
  rename_i idle
  exact ⟨idle,ok⟩

theorem observingIdle (idle : w.onCallee = none) : w.onCallee ≠ some i := by
  rw [idle]
  simp

/- The Call whose OnCallee is running has no connection to report for it. -/
theorem observingConnected {m : Member} (inv : Inv w) (found : w.calls[i]? = some m)
    (reports : m.connected = true ∨ 0 < m.requests) : w.onCallee ≠ some i := by
  intro running
  obtain ⟨unconnected,quiet⟩ := (inv.fit i m found).fresh (fun other => other running)
  rcases reports with connected | requests
  · rw [unconnected] at connected
    cases connected
  · omega

end

theorem appendFit {w : World} {m : Member} {running : Option Nat} (inv : Inv w)
    (apart : ∀ j < w.calls.length, running ≠ some j ↔ w.onCallee ≠ some j)
    (bound : ∀ j, running = some j → j ≤ w.calls.length) (own : Fit (running ≠ some w.calls.length) m) :
    Inv {w with calls := w.calls ++ [m], onCallee := running} := by
  refine ⟨?_,?_,inv.factory,inv.present⟩
  · intro j k held
    rcases grownCases held with old | ⟨rfl,rfl⟩
    · have fits := inv.fit j k old
      have inside := (List.getElem?_eq_some_iff.mp old).1
      exact ⟨fits.caller,fits.callee,fits.connection,fun o => fits.observer ((apart j inside).mp o),
        fun o => fits.fresh (mt (apart j inside).mpr o)⟩
    · exact own
  · intro j here
    have limit := bound j here
    rw [List.length_append]
    exact Nat.lt_succ_of_le limit

theorem makeCallInv {w : World} {x : Creation} (inv : Inv w) (ready : w.phase = .ready)
    (supplied : x.addTrack = true → x.connection = true) : Inv (makeCall x w) := by
  obtain ⟨b,d,ran⟩ := initCallerReturns (c := Call.new w.pcFactory) (inv.factory ready) supplied
  unfold makeCall
  rw [ran]
  cases b with
  | false => exact inv
  | true =>
    obtain ⟨caller,callee,observer,held⟩ := initCallerStays ran
    have observing : w.onCallee ≠ some w.calls.length := by
      intro here
      exact absurd (inv.inside _ here) (Nat.lt_irrefl _)
    refine appendFit inv (fun _ _ => Iff.rfl) (fun j here => Nat.le_of_lt (inv.inside j here)) ?_
    exact ⟨caller,callee,fun _ => held,fun _ => observer,fun other => absurd observing other⟩

theorem calleeCreatedInv {w : World} (kept : Bool) (inv : Inv w) (idle : w.onCallee = none) :
    Inv (calleeCreated kept w) := by
  refine @appendFit w _ (some w.calls.length) inv ?_ ?_ ?_
  · intro j old
    rw [idle]
    simp
    omega
  · intro j here
    exact Nat.le_of_eq (Option.some.inj here).symm
  · exact ⟨rfl,rfl,(by intro other; cases other),fun other => absurd rfl other,fun _ => ⟨rfl,rfl⟩⟩

theorem setObserverInv {w u : World} {i : Nat} (inv : Inv w) (running : w.onCallee = some i)
    (ok : perform i (fun _ => true) id (setObserver true) w = some u) : Inv {u with onCallee := none} := by
  obtain ⟨m,found,_,outcome⟩ := performCases ok
  rcases outcome with ⟨b,d,ran,same⟩ | ⟨missing,ran,_⟩
  · cases modifyOk.mp ran
    subst same
    refine ⟨?_,(by intro j here; cases here),inv.factory,inv.present⟩
    intro j k held
    rw [List.getElem?_set] at held
    split at held
    · split at held <;> try contradiction
      cases Option.some.inj held
      have own := inv.fit i m found
      exact ⟨own.caller,own.callee,own.connection,fun _ => rfl,fun other => absurd (observingIdle rfl) other⟩
    · rename_i other
      have own := inv.fit j k held
      have observing : w.onCallee ≠ some j := by
        rw [running]
        exact fun same => other (Option.some.inj same)
      exact ⟨own.caller,own.callee,own.connection,fun _ => own.observer observing,
        fun other => absurd (observingIdle rfl) other⟩
  · cases ran

theorem abandonInv {w : World} (inv : Inv w) : Inv (abandon w) := by
  refine ⟨?_,?_,(by intro ready; cases ready),inv.present⟩
  · intro i m held
    simp only [abandon,List.getElem?_map,Option.map_eq_some_iff] at held
    obtain ⟨old,found,rfl⟩ := held
    have own := inv.fit i old found
    exact ⟨own.caller,own.callee,own.connection,own.observer,own.fresh⟩
  · intro i running
    rw [abandon,List.length_map]
    exact inv.inside i running

theorem keepsInv (lib : Library) : Keeps (step lib) (fun w e => True ∧ Supplied lib w e) Inv := by
  intro w e u inv supplied ok
  have supplied := supplied.2
  unfold step at ok
  rw [if_pos inv.present] at ok
  cases e with
  | createSessionUser made =>
    simp only [act] at ok
    split at ok <;> try contradiction
    cases Option.some.inj ok
    exact ⟨inv.fit,inv.inside,(by intro ready; cases made <;> cases ready),inv.present⟩
  | login =>
    simp only [act] at ok
    split at ok <;> try contradiction
    cases Option.some.inj ok
    exact ⟨inv.fit,inv.inside,(by intro ready; cases ready),inv.present⟩
  | createFactory made =>
    simp only [act] at ok
    split at ok <;> try contradiction
    cases Option.some.inj ok
    cases made with
    | true => exact ⟨inv.fit,inv.inside,fun _ => rfl,inv.present⟩
    | false => exact abandonInv inv
  | makeCall x =>
    simp only [act] at ok
    split at ok <;> try contradiction
    rename_i ready
    cases Option.some.inj ok
    exact makeCallInv inv ready supplied
  | onCallee kept =>
    simp only [act] at ok
    split at ok <;> try contradiction
    obtain ⟨idle,next⟩ := onDumExact ok
    cases Option.some.inj next
    exact calleeCreatedInv kept inv idle
  | setObserver =>
    simp only [act] at ok
    split at ok <;> try contradiction
    rename_i i running
    obtain ⟨v,ran,rfl⟩ := Option.map_eq_some_iff.mp ok
    exact setObserverInv inv running ran
  | onOffer i offer x =>
    obtain ⟨idle,ran⟩ := onDumExact ok
    refine performInv inv ran (fun _ => rfl) ?_
    intro m found ready
    have own := inv.fit i m found
    have role : m.role = .callee := by simpa using (Bool.and_eq_true_iff.mp ready).2
    have callee : m.call.callee = true := by rw [own.callee,role]; rfl
    obtain ⟨d,returns⟩ :=
      @offerReturns lib m.call x offer callee (own.observer (observingIdle idle)) (supplied m found)
    exact ⟨observingIdle idle,⟨_,returns⟩,fun _ _ ran => offerStays callee ran⟩
  | onAnswer i localSdp answer =>
    obtain ⟨idle,ran⟩ := onDumExact ok
    refine performInv inv ran (fun _ => rfl) ?_
    intro m found ready
    have own := inv.fit i m found
    have role : m.role = .caller := by simpa using (Bool.and_eq_true_iff.mp ready).2
    have caller : m.call.caller = true := by rw [own.caller,role]; rfl
    obtain ⟨d,returns⟩ := @answerReturns lib m.call localSdp answer caller (own.connection role)
    exact ⟨observingIdle idle,⟨_,returns⟩,fun _ _ ran => answerStays ran⟩
  | onMessage i msg =>
    obtain ⟨idle,ran⟩ := onDumExact ok
    refine performInv inv ran (fun _ => rfl) ?_
    intro m found _
    have own := inv.fit i m found
    have named : m.call.holds .call = true := by
      rw [Call.holds,own.caller,own.callee]
      cases m.role <;> rfl
    obtain ⟨d,returns⟩ := @messageAnswered lib m.call msg named (supplied m found)
    exact ⟨observingIdle idle,⟨_,returns⟩,fun _ _ ran => messageStays ran⟩
  | onTerminated i =>
    obtain ⟨idle,ran⟩ := onDumExact ok
    refine performInv inv ran ?_ ?_
    · intro m
      cases m.call.callee <;> rfl
    · intro m found _
      refine ⟨observingIdle idle,⟨_,rfl⟩,?_⟩
      intro b d returned
      rw [(pureOk.mp returned).2]
      exact staysRefl m.call
  | descriptionCreated i desc =>
    refine performInv inv ok (fun _ => rfl) ?_
    intro m found ready
    have own := inv.fit i m found
    have requests : 0 < m.requests := by simpa using (Bool.and_eq_true_iff.mp ready).2
    have held : m.call.callee = true → m.call.pc.isSome = true := by
      intro callee
      apply supplied m found
      rw [own.callee] at callee
      simpa using callee
    obtain ⟨d,returns⟩ := @describedReturns m.call desc held
    exact ⟨observingConnected inv found (.inr requests),⟨_,returns⟩,fun _ _ ran => describedStays ran⟩
  | descriptionFailed i =>
    refine performInv (f := onCreateSessionDescriptionFailure) inv ok (fun _ => rfl) ?_
    intro m found ready
    have requests : 0 < m.requests := by simpa using (Bool.and_eq_true_iff.mp ready).2
    refine ⟨observingConnected inv found (.inr requests),⟨_,rfl⟩,?_⟩
    intro b d returned
    rw [(pureOk.mp returned).2]
    exact staysRefl m.call
  | descriptionSet i remote success =>
    refine performInv inv ok (fun _ => rfl) ?_
    intro m found ready
    have connected := (Bool.and_eq_true_iff.mp ready).2
    refine ⟨observingConnected inv found (.inl connected),⟨(⟨⟩,m.call),by cases success <;> rfl⟩,?_⟩
    intro b d returned
    have same : d = m.call := by cases success <;> exact (pureOk.mp returned).2
    rw [same]
    exact staysRefl m.call
  | onIceCandidate i candidate =>
    refine performInv inv ok (fun _ => rfl) ?_
    intro m found ready
    have connected := (Bool.and_eq_true_iff.mp ready).2
    refine ⟨observingConnected inv found (.inl connected),⟨_,candidateRuns lib candidate m.call⟩,?_⟩
    intro b d returned
    rw [candidateRuns] at returned
    cases returned
    exact staysSame m.call _
  | onAddStream i stream =>
    refine performInv inv ok (fun _ => rfl) ?_
    intro m found ready
    have observing := observingConnected inv found (.inl (Bool.and_eq_true_iff.mp ready).2)
    obtain ⟨d,returns⟩ := @addStreamsReturn stream.label stream.videoTracks m.call
      ((inv.fit i m found).observer observing)
    exact ⟨observing,⟨_,returns⟩,fun _ _ ran => addStreamsStay ran⟩
  | onRemoveStream i stream =>
    refine performInv (f := onRemoveStream stream) inv ok (fun _ => rfl) ?_
    intro m found ready
    have observing := observingConnected inv found (.inl (Bool.and_eq_true_iff.mp ready).2)
    exact ⟨observing,⟨_,rfl⟩,fun _ _ ran => removeStreamStays ran⟩
  | release i =>
    simp only [act] at ok
    split at ok <;> try contradiction
    rename_i m found
    split at ok <;> try contradiction
    cases Option.some.inj ok
    exact editFit inv found (fun own => ⟨own.caller,own.callee,own.connection,own.observer,own.fresh⟩)

/- A member that found what it needs: the step records nothing. -/
theorem performNeeds {α : Type} {w u : World} {i : Nat} {enabled : Member → Bool} {take : Member → Member}
    {f : CallM α} (ok : perform i enabled take f w = some u) (missing : u.missing = none) :
    ∃ m, w.calls[i]? = some m ∧ enabled m = true ∧ ∃ b d, f m.call = .ok (b,d) := by
  obtain ⟨m,found,ready,outcome⟩ := performCases ok
  rcases outcome with ⟨b,d,ran,_⟩ | ⟨x,_,same⟩
  · exact ⟨m,found,ready,b,d,ran⟩
  · rw [same] at missing
    cases missing

theorem breaksSupply {lib : Library} {w u : World} {e : Event} (inv : Inv w) (short : ¬ Supplied lib w e)
    (ok : step lib w e = some u) : ¬ NothingMissing u := by
  intro missing
  apply short
  unfold step at ok
  rw [if_pos inv.present] at ok
  cases e with
  | makeCall x =>
    simp only [act] at ok
    split at ok <;> try contradiction
    cases Option.some.inj ok
    unfold makeCall at missing
    split at missing
    · rename_i d ran
      exact initCallerNeeds ran
    · rename_i d ran
      exact initCallerNeeds ran
    · cases missing
  | onOffer i offer x =>
    obtain ⟨idle,ran⟩ := onDumExact ok
    obtain ⟨m,found,_,_,_,returned⟩ := performNeeds ran missing
    intro n same
    rw [found] at same
    cases same
    exact offerNeeds ((inv.fit i m found).observer (observingIdle idle)) returned
  | onMessage i msg =>
    obtain ⟨_,ran⟩ := onDumExact ok
    obtain ⟨m,found,_,_,_,returned⟩ := performNeeds ran missing
    intro n same
    rw [found] at same
    cases same
    exact messageNeeds returned
  | descriptionCreated i desc =>
    obtain ⟨m,found,_,_,_,returned⟩ := performNeeds ok missing
    intro n same role
    rw [found] at same
    cases same
    have callee : m.call.callee = true := by rw [(inv.fit i m found).callee,role]; rfl
    exact describedNeeds returned callee
  | _ => trivial

/- No member is found missing exactly in the runs whose steps are all supplied. -/
theorem componentsThereExactly (lib : Library) (events : List Event) :
    Visits (step lib) NothingMissing World.start events ↔ Meets (step lib) (Supplied lib) World.start events := by
  have start : Inv World.start := by
    refine ⟨?_,?_,?_,rfl⟩
    · intro i m held
      simp [World.start] at held
    · intro i running
      cases running
    · intro ready
      cases ready
  exact visitsIffMeets (keepsInv lib) (fun _ inv => inv.present)
    (fun _ _ _ inv _ short ok => breaksSupply inv short ok) start (meetsOfEvents (fun _ _ _ => trivial) _)

/- The user is ready, and an INVITE without an offer has made a callee. -/
def uninvited : List Event := [.createSessionUser true,.login,.createFactory true,.onCallee true,.setObserver]

def called : Call := {Call.new true with callee := true, observer := true}

def ready : World :=
  {World.start with phase := .ready, pcFactory := true, calls := [⟨.callee,called,false,0,true,true⟩]}

theorem candidateStops {lib : Library} {msg : Contents} {candidate : Candidate}
    (read : readCandidate lib msg = some candidate) :
    run (step lib) ready [.onMessage 0 msg] = some {ready with missing := some .pc} := by
  have unconnected : onMessage lib msg called = .error .pc := by
    rw [messageRuns,read]
    rfl
  simp [run,step,act,onDum,perform,ready,World.start,Member.alive,unconnected]

/- A call comes between Login and the factory; an INVITE without an offer is followed by
a candidate; CreatePeerConnection gives null. -/
theorem componentsMissing :
    ¬ Visits (step textLibrary) NothingMissing World.start [.createSessionUser true,.login,.onCallee true,
      .setObserver,.onOffer 0 offerText ⟨true,none,true,true⟩] ∧
    ¬ Visits (step textLibrary) NothingMissing World.start (uninvited ++ [.onMessage 0 ⟨jsonMimeType,hostText⟩]) ∧
    ¬ Visits (step textLibrary) NothingMissing World.start [.createSessionUser true,.login,.createFactory true,
      .makeCall ⟨false,none,true,true⟩] := by
  refine ⟨by decide,?_,by decide⟩
  intro visits
  have read : readCandidate textLibrary ⟨jsonMimeType,hostText⟩ = some host := readIff.mpr ⟨rfl,textCarries⟩
  have began : run (step textLibrary) World.start uninvited = some ready := rfl
  cases visitsLast visits (runAppend began (candidateStops read))

end RtcCall.Components
