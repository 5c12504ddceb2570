import RtcCall.Lib.Ownership
import RtcCall.Lib.Runs

/-! Who keeps whom alive: the engine, its CallUsers, their Calls, and what the session
has of each, with the strong references between them. A unique_ptr member is part of its
owner, so a Call stands for its SipCaller or SipCallee too, a CallUser for its SipUser
and the engine for its SipStack and SipUserManager. -/
namespace RtcCall.Custody
open Ownership StepRuns

/- A Call of a user; an incoming one comes from the DUM. -/
structure CallId where
  user : Nat
  index : Nat
  incoming : Bool
  deriving DecidableEq, Repr

inductive Object where
  | engine
  | user (i : Nat)
  | context (i : Nat)
  | dumThread (i : Nat)
  | dialogSetFactory (i : Nat)
  | call (c : CallId)
  | callContext (c : CallId)
  | dialogSet (c : CallId)
  deriving DecidableEq, Repr

/- The application's threads, and the DUM thread of each user. -/
inductive Thread where | app | dum (i : Nat) deriving DecidableEq, Repr

abbrev Reference := Ref Thread Object

def handle (t : Thread) (o : Object) : Reference := ⟨.root t,o⟩

def holds (o p : Object) : Reference := ⟨.object o,p⟩

/- `known` are the objects there ever were, `left` the DUM threads out of their loop.
Observed only: `quits` are the Calls whose OnCalleeQuit has run, and `stuck` the DUM
threads that came to destroy the engine, whose destructor waits for the user of each
thread that has not left its loop. -/
structure World where
  heap : Heap Thread Object
  known : List Object
  left : List Nat
  quits : List CallId
  stuck : List Nat
  deriving DecidableEq, Repr

def World.start : World := ⟨⟨[.engine],[handle .app .engine]⟩,[.engine],[],[],[]⟩

/- What one step makes, what it takes hold of, and what it then releases. -/
structure Change where
  thread : Thread
  new : List Object := []
  gained : List Reference := []
  lost : List Reference := []
  left : List Nat := []
  quits : List CallId := []

/- The references that the running callback of a DUM thread has on its stack. -/
def frames (i : Nat) (w : World) : List Reference := w.heap.refs.filter (·.holder == .root (.dum i))

def World.live (w : World) (o : Object) : Bool := w.heap.live.contains o

def World.has (w : World) (r : Reference) : Bool := w.heap.refs.contains r

def World.fresh (w : World) (os : List Object) : Bool := os.all (fun o => !w.known.contains o)

/- The DUM calls back when its thread is in its loop and in no callback. -/
def calls (i : Nat) (w : World) : Bool := w.live (.context i) && (frames i w).isEmpty && !w.left.contains i

def Change.apply (c : Change) (w : World) : World :=
  let heap := w.heap.change c.new c.gained c.lost
  ⟨heap,c.new ++ w.known,c.left ++ w.left,c.quits ++ w.quits,match c.thread with
    | .dum i =>
      if .engine ∈ w.heap.live ∧ .engine ∉ heap.live ∧ holds .engine (.context i) ∈ w.heap.refs then i::w.stuck
      else w.stuck
    | .app => w.stuck⟩

inductive Event where
  | create (i : Nat)
  | createSessionUser (i : Nat)
  | makeCall (c : CallId)
  | invite (c : CallId)
  | onCallee (c : CallId)
  | observerKeeps (c : CallId)
  | dialogSetCreated (c : CallId)
  | onLoginResult (i : Nat)
  | onCall (c : CallId)
  | onCalleeQuit (c : CallId)
  | returns (i : Nat)
  | dialogSetDestroyed (c : CallId)
  | onUserDeleted (i : Nat)
  | drop (t : Thread) (o : Object)
  deriving DecidableEq, Repr

def when (enabled : Bool) (c : Change) : Option Change := if enabled then some c else none

/- CallUser::Create, before Initialize. -/
def create (i : Nat) (w : World) : Option Change :=
  when (w.has (handle .app .engine) && w.fresh [.user i])
    {thread := .app, new := [.user i], gained := [handle .app (.user i),holds (.user i) .engine]}

/- CreateSessionUser: Initialize gives the context its thread and its factory, which both
hold it; the manager lists it and the SipUser of the CallUser holds it. -/
def createSessionUser (i : Nat) (w : World) : Option Change :=
  when (w.has (handle .app (.user i)) && w.fresh [.context i,.dumThread i,.dialogSetFactory i])
    {thread := .app
     new := [.context i,.dumThread i,.dialogSetFactory i]
     gained := [holds (.context i) (.dumThread i),holds (.dumThread i) (.context i),
       holds (.context i) (.dialogSetFactory i),holds (.dialogSetFactory i) (.context i),
       holds .engine (.context i),holds (.user i) (.context i)]}

/- MakeCall; NewCall makes the call's context, which holds the user's. -/
def makeCall (c : CallId) (w : World) : Option Change :=
  when (w.has (handle .app (.user c.user)) && w.has (holds (.user c.user) (.context c.user)) && !c.incoming &&
      w.fresh [.call c,.callContext c])
    {thread := .app
     new := [.call c,.callContext c]
     gained := [handle .app (.call c),holds (.call c) (.callContext c),holds (.callContext c) (.context c.user)]}

/- DoInvite makes the dialog set, which the DUM then owns. -/
def invite (c : CallId) (w : World) : Option Change :=
  when (w.live (.callContext c) && w.live (.context c.user) && !c.incoming && w.fresh [.dialogSet c])
    {thread := .dum c.user
     new := [.dialogSet c]
     gained := [holds (.context c.user) (.dialogSet c),holds (.dialogSet c) (.callContext c)]}

/- createAppDialogSet up to the observer's OnCallee. Without the CallUser nobody is told,
and the SipCallee is gone at once. -/
def onCallee (c : CallId) (w : World) : Option Change :=
  let made := [handle (.dum c.user) (.callContext c),holds (.callContext c) (.context c.user)]
  when (calls c.user w && c.incoming && w.fresh [.call c,.callContext c])
    (if w.live (.user c.user) then
      {thread := .dum c.user
       new := [.call c,.callContext c]
       gained := made ++ [handle (.dum c.user) (.user c.user),holds (.user c.user) (.call c),
         handle (.dum c.user) (.call c),holds (.call c) (.callContext c)]}
    else {thread := .dum c.user, new := [.callContext c], gained := made})

/- The observer keeps the Call it is given. -/
def observerKeeps (c : CallId) (w : World) : Option Change :=
  when (w.has (handle (.dum c.user) (.call c)) && w.has (handle (.dum c.user) (.user c.user)))
    {thread := .dum c.user, gained := [handle .app (.call c)]}

/- The rest of createAppDialogSet, which ends the callback. -/
def dialogSetCreated (c : CallId) (w : World) : Option Change :=
  when (w.has (handle (.dum c.user) (.callContext c)) && w.live (.context c.user) && w.fresh [.dialogSet c])
    {thread := .dum c.user
     new := [.dialogSet c]
     gained := [holds (.context c.user) (.dialogSet c),holds (.dialogSet c) (.callContext c)]
     lost := frames c.user w}

/- The callback is locked for the time of the call. -/
def onLoginResult (i : Nat) (w : World) : Option Change :=
  when (calls i w && w.live (.user i)) {thread := .dum i, gained := [handle (.dum i) (.user i)]}

/- Any callback of an invite session: GetCallCtxFromHandle, then the Call is locked. -/
def onCall (c : CallId) (w : World) : Option Change :=
  when (calls c.user w && w.live (.dialogSet c))
    {thread := .dum c.user
     gained := handle (.dum c.user) (.callContext c) ::
       if w.live (.call c) then [handle (.dum c.user) (.call c)] else []}

/- OnTerminated of a callee. -/
def onCalleeQuit (c : CallId) (w : World) : Option Change :=
  when (w.has (handle (.dum c.user) (.call c)) && c.incoming && w.live (.user c.user))
    {thread := .dum c.user, lost := [holds (.user c.user) (.call c)], quits := [c]}

def returns (i : Nat) (w : World) : Option Change :=
  when ((frames i w).all (fun r => match r.target with
      | .callContext c => w.known.contains (.dialogSet c)
      | _ => true))
    {thread := .dum i, lost := frames i w}

def dialogSetDestroyed (c : CallId) (w : World) : Option Change :=
  when (calls c.user w && w.has (holds (.context c.user) (.dialogSet c)))
    {thread := .dum c.user, lost := [holds (.context c.user) (.dialogSet c)]}

/- The thread leaves its loop after ~SipUser has posted the shutdown. -/
def onUserDeleted (i : Nat) (w : World) : Option Change :=
  when (calls i w && !w.live (.user i))
    {thread := .dum i, lost := [holds .engine (.context i)], left := [i]}

/- The application drops a handle, on a thread of its own or in a callback. -/
def drop (t : Thread) (o : Object) (w : World) : Option Change :=
  when (w.has (handle .app o) && match t with
      | .app => true
      | .dum i => !(frames i w).isEmpty)
    {thread := t, lost := [handle .app o]}

def changeOf (w : World) : Event → Option Change
  | .create i => create i w
  | .createSessionUser i => createSessionUser i w
  | .makeCall c => makeCall c w
  | .invite c => invite c w
  | .onCallee c => onCallee c w
  | .observerKeeps c => observerKeeps c w
  | .dialogSetCreated c => dialogSetCreated c w
  | .onLoginResult i => onLoginResult i w
  | .onCall c => onCall c w
  | .onCalleeQuit c => onCalleeQuit c w
  | .returns i => returns i w
  | .dialogSetDestroyed c => dialogSetDestroyed c w
  | .onUserDeleted i => onUserDeleted i w
  | .drop t o => drop t o w

def step (w : World) (e : Event) : Option World := (changeOf w e).map (·.apply w)

/-! What a change of the program can be. -/

/- Who may hold the engine, a CallUser and a Call, and what a thread may hold. -/
structure Shaped (r : Reference) : Prop where
  engine : r.target = .engine → r = handle .app .engine ∨ ∃ i, r = holds (.user i) .engine
  user : ∀ i, r.target = .user i → ∃ t, r = handle t (.user i)
  call : ∀ k, r.target = .call k → (∃ t, r = handle t (.call k)) ∨ r = holds (.user k.user) (.call k)
  rooted : ∀ t, r.holder = .root t → (∀ i, r.target ≠ .context i) ∧ ∀ i, r.target ≠ .dumThread i

inductive Released (w : World) : Reference → Prop where
  | handle {t o} (there : handle t o ∈ w.heap.refs) : Released w (handle t o)
  | listed (i : Nat) : Released w (holds .engine (.context i))
  | callee (k : CallId) : Released w (holds (.user k.user) (.call k))
  | dialogSet (k : CallId) : Released w (holds (.context k.user) (.dialogSet k))

/- What an object is made with, and holds until its destructor releases it. -/
def members : Object → List Object
  | .engine => []
  | .user _ => [.engine]
  | .context i => [.dumThread i,.dialogSetFactory i]
  | .dumThread i | .dialogSetFactory i => [.context i]
  | .call k | .dialogSet k => [.callContext k]
  | .callContext k => [.context k.user]

/- No reference to the engine, to a CallUser or to a Call. -/
def Silent (r : Reference) : Prop :=
  r.target ≠ .engine ∧ (∀ i, r.target ≠ .user i) ∧ ∀ k, r.target ≠ .call k

structure Lawful (w : World) (c : Change) : Prop where
  fits : Fits w.heap c.new c.gained
  fresh : ∀ o ∈ c.new, o ∉ w.known
  shaped : ∀ r ∈ c.gained, Shaped r
  released : ∀ r ∈ c.lost, Released w r
  members : ∀ o ∈ c.new, ∀ p ∈ members o, holds o p ∈ c.gained
  contexts : ∀ i, .context i ∈ c.new → .dumThread i ∈ c.new
  calls : ∀ k, .call k ∈ c.new → c.lost = [] ∧ .user k.user ∈ w.heap.live ∧
    (k.incoming = true → holds (.user k.user) (.call k) ∈ c.gained)
  locked : ∀ k t, handle t (.call k) ∈ c.gained → .call k ∈ c.new ∨ .call k ∈ w.heap.live
  quiet : c.lost = [] ∨ ∀ r ∈ c.gained, Silent r
  quits : ∀ k, holds (.user k.user) (.call k) ∈ c.lost → k ∈ c.quits
  listed : ∀ i, (.context i ∈ c.new → holds .engine (.context i) ∈ c.gained) ∧
    (holds .engine (.context i) ∈ c.lost → i ∈ c.left)
  entered : ∀ i, (∀ r ∈ c.gained, r.holder = .root (.dum i) → i ∉ w.left ∧ .context i ∈ w.known) ∧
    (i ∈ c.left → c.gained = [] ∧ frames i w = [])
  busy : ∀ i, c.thread = .dum i → (∃ t o, handle t o ∈ c.lost) → frames i w ≠ []

structure Inv (w : World) : Prop where
  closed : w.heap.Closed
  owned : w.heap.Owned
  shaped : ∀ r ∈ w.heap.refs, Shaped r
  known : ∀ o ∈ w.heap.live, o ∈ w.known
  members : ∀ o ∈ w.heap.live, ∀ p ∈ members o, holds o p ∈ w.heap.refs
  contexts : ∀ i, .context i ∈ w.known → w.heap.Sustains (fun o => o = .context i ∨ o = .dumThread i)
  owners : ∀ k, .call k ∈ w.known → .user k.user ∈ w.known
  callees : ∀ k, .call k ∈ w.known → k.incoming = true → k ∉ w.quits → .user k.user ∈ w.heap.live →
    holds (.user k.user) (.call k) ∈ w.heap.refs
  engine : .engine ∈ w.known
  listed : ∀ i, .context i ∈ w.known → i ∉ w.left → .engine ∈ w.heap.live → holds .engine (.context i) ∈ w.heap.refs
  running : ∀ i, ∀ r ∈ w.heap.refs, r.holder = .root (.dum i) → i ∉ w.left ∧ .context i ∈ w.known

section
variable {w : World} {c : Change}

theorem whenSome {enabled : Bool} {d : Change} (ok : when enabled d = some c) : enabled = true ∧ c = d := by
  unfold when at ok
  split at ok <;> try contradiction
  rename_i on
  exact ⟨on,(Option.some.inj ok).symm⟩

@[simp] theorem hasIff {r : Reference} : w.has r = true ↔ r ∈ w.heap.refs := by
  simp [World.has]

@[simp] theorem liveIff {o : Object} : w.live o = true ↔ o ∈ w.heap.live := by
  simp [World.live]

@[simp] theorem freshIff {os : List Object} : w.fresh os = true ↔ ∀ o ∈ os, o ∉ w.known := by
  simp [World.fresh]

theorem frameCases {i : Nat} {r : Reference} (there : r ∈ frames i w) :
    r ∈ w.heap.refs ∧ r = handle (.dum i) r.target := by
  obtain ⟨old,held⟩ := List.mem_filter.mp there
  refine ⟨old,?_⟩
  cases r
  cases eq_of_beq held
  rfl

theorem frameReleased {i : Nat} {r : Reference} (there : r ∈ frames i w) : Released w r := by
  obtain ⟨old,same⟩ := frameCases there
  rw [same] at old ⊢
  exact .handle old

theorem callsCases {i : Nat} (ready : calls i w = true) :
    .context i ∈ w.heap.live ∧ frames i w = [] ∧ i ∉ w.left := by
  simpa [calls,and_assoc] using ready

/- A change that only releases. -/
theorem releasesLawful (new : c.new = []) (gained : c.gained = []) (released : ∀ r ∈ c.lost, Released w r)
    (quits : ∀ k, holds (.user k.user) (.call k) ∈ c.lost → k ∈ c.quits)
    (unlisted : ∀ i, holds .engine (.context i) ∈ c.lost → i ∈ c.left) (leaves : ∀ i ∈ c.left, frames i w = [])
    (busy : ∀ i, c.thread = .dum i → (∃ t o, handle t o ∈ c.lost) → frames i w ≠ []) : Lawful w c := by
  refine ⟨⟨?_,?_⟩,?_,?_,released,?_,?_,?_,?_,.inr ?_,quits,fun i => ⟨?_,unlisted i⟩,
    fun i => ⟨?_,fun left => ⟨gained,leaves i left⟩⟩,busy⟩ <;> simp [new,gained]

theorem applyKnown {o : Object} : o ∈ (c.apply w).known ↔ o ∈ c.new ∨ o ∈ w.known := List.mem_append

theorem releasedMember {o p : Object} (released : Released w (holds o p)) : p ∉ members o := by
  cases released <;> simp [members]

/- A reference between two objects stays while the holder lives and nobody releases it. -/
theorem heldOn {o p : Object} (there : holds o p ∈ c.gained ∨ (holds o p ∈ w.heap.refs ∧ holds o p ∉ c.lost))
    (live : o ∈ (c.apply w).heap.live) : holds o p ∈ (c.apply w).heap.refs := by
  refine changeKeeps there (fun n held => ?_)
  cases held
  exact live

theorem userBefore {i : Nat} (lawful : Lawful w c) (known : .user i ∈ w.known)
    (live : .user i ∈ (c.apply w).heap.live) : .user i ∈ w.heap.live := by
  rcases changeLive live with fresh | old
  · exact absurd known (lawful.fresh _ fresh)
  · exact old

section
variable (inv : Inv w) (lawful : Lawful w c)
include inv lawful

theorem appliedClosed : (c.apply w).heap.Closed := changeClosed inv.closed lawful.fits

theorem appliedShaped {r : Reference} (there : r ∈ (c.apply w).heap.refs) : Shaped r := by
  rcases changeRefs there with fresh | ⟨old,_⟩
  · exact lawful.shaped r fresh
  · exact inv.shaped r old

theorem appliedMembers (o : Object) (live : o ∈ (c.apply w).heap.live) (p : Object) (inside : p ∈ members o) :
    holds o p ∈ (c.apply w).heap.refs := by
  refine heldOn ?_ live
  rcases changeLive live with fresh | old
  · exact .inl (lawful.members o fresh p inside)
  · exact .inr ⟨inv.members o old p inside,fun gone => releasedMember (lawful.released _ gone) inside⟩

theorem appliedContexts (i : Nat) (known : .context i ∈ (c.apply w).known) :
    (c.apply w).heap.Sustains (fun o => o = .context i ∨ o = .dumThread i) := by
  refine changeSustains (fun o inside => ?_)
  rcases applyKnown.mp known with fresh | old
  · have thread := lawful.contexts i fresh
    have forth := lawful.members _ thread (.context i) (by simp [members])
    have back := lawful.members _ fresh (.dumThread i) (by simp [members])
    rcases inside with rfl | rfl
    · exact ⟨List.mem_append_left _ fresh,_,.inl forth,rfl,fun m held => by cases held; exact .inr rfl⟩
    · exact ⟨List.mem_append_left _ thread,_,.inl back,rfl,fun m held => by cases held; exact .inl rfl⟩
  · obtain ⟨live,r,there,same,held⟩ := inv.contexts i old o inside
    refine ⟨List.mem_append_right _ live,r,.inr ⟨there,fun gone => ?_⟩,same,held⟩
    cases lawful.released r gone with
    | handle old =>
      have apart := (inv.shaped _ old).rooted _ rfl
      rcases inside with rfl | rfl
      · exact apart.1 i same
      · exact apart.2 i same
    | listed j =>
      rcases held .engine rfl with wrong | wrong <;> cases wrong
    | callee k => rcases inside with rfl | rfl <;> cases same
    | dialogSet k => rcases inside with rfl | rfl <;> cases same

theorem appliedCallees (k : CallId) (known : .call k ∈ (c.apply w).known) (incoming : k.incoming = true)
    (stays : k ∉ (c.apply w).quits) (live : .user k.user ∈ (c.apply w).heap.live) :
    holds (.user k.user) (.call k) ∈ (c.apply w).heap.refs := by
  refine heldOn ?_ live
  rcases applyKnown.mp known with fresh | old
  · exact .inl ((lawful.calls k fresh).2.2 incoming)
  · have before := userBefore lawful (inv.owners k old) live
    have there := inv.callees k old incoming (fun quit => stays (List.mem_append_right _ quit)) before
    exact .inr ⟨there,fun gone => stays (List.mem_append_left _ (lawful.quits k gone))⟩

theorem appliedListed (i : Nat) (known : .context i ∈ (c.apply w).known) (stays : i ∉ (c.apply w).left)
    (live : .engine ∈ (c.apply w).heap.live) : holds .engine (.context i) ∈ (c.apply w).heap.refs := by
  refine heldOn ?_ live
  rcases applyKnown.mp known with fresh | old
  · exact .inl ((lawful.listed i).1 fresh)
  · have before : .engine ∈ w.heap.live := by
      rcases changeLive live with fresh | there
      · exact absurd inv.engine (lawful.fresh _ fresh)
      · exact there
    have there := inv.listed i old (fun left => stays (List.mem_append_right _ left)) before
    exact .inr ⟨there,fun gone => stays (List.mem_append_left _ ((lawful.listed i).2 gone))⟩

theorem appliedRunning (i : Nat) (r : Reference) (there : r ∈ (c.apply w).heap.refs)
    (held : r.holder = .root (.dum i)) : i ∉ (c.apply w).left ∧ .context i ∈ (c.apply w).known := by
  have before : (i ∉ w.left ∧ .context i ∈ w.known) ∧ i ∉ c.left := by
    rcases changeRefs there with fresh | ⟨old,_⟩
    · refine ⟨(lawful.entered i).1 r fresh held,fun leaves => ?_⟩
      rw [((lawful.entered i).2 leaves).1] at fresh
      cases fresh
    · refine ⟨inv.running i r old held,fun leaves => ?_⟩
      have frame : r ∈ frames i w := List.mem_filter.mpr ⟨old,by simp [held]⟩
      rw [((lawful.entered i).2 leaves).2] at frame
      cases frame
  obtain ⟨⟨stays,known⟩,here⟩ := before
  exact ⟨fun left => (List.mem_append.mp left).elim here stays,applyKnown.mpr (.inr known)⟩

theorem keepsInv : Inv (c.apply w) := by
  refine ⟨appliedClosed inv lawful,changeOwned,fun r => appliedShaped inv lawful,fun o live => ?_,
    appliedMembers inv lawful,appliedContexts inv lawful,fun k known => ?_,appliedCallees inv lawful,
    applyKnown.mpr (.inr inv.engine),appliedListed inv lawful,appliedRunning inv lawful⟩
  · exact applyKnown.mpr ((changeLive live).imp id (inv.known o))
  · rcases applyKnown.mp known with fresh | old
    · exact applyKnown.mpr (.inr (inv.known _ (lawful.calls k fresh).2.1))
    · exact applyKnown.mpr (.inr (inv.owners k old))

end

/-! The changes of the program are lawful. -/

@[simp] theorem shapedUser (t : Thread) (i : Nat) : Shaped (handle t (.user i)) := by
  refine ⟨?_,?_,?_,?_⟩ <;> simp [handle,holds]

@[simp] theorem shapedCall (t : Thread) (k : CallId) : Shaped (handle t (.call k)) := by
  refine ⟨?_,?_,?_,?_⟩ <;> simp [handle,holds]

@[simp] theorem shapedCallContext (t : Thread) (k : CallId) : Shaped (handle t (.callContext k)) := by
  refine ⟨?_,?_,?_,?_⟩ <;> simp [handle]

@[simp] theorem shapedEngine (i : Nat) : Shaped (holds (.user i) .engine) := by
  refine ⟨?_,?_,?_,?_⟩ <;> simp [handle,holds]

@[simp] theorem shapedCallee (k : CallId) : Shaped (holds (.user k.user) (.call k)) := by
  refine ⟨?_,?_,?_,?_⟩ <;> simp [handle,holds]

@[simp] theorem shapedHeld {o p : Object} (engine : p ≠ .engine) (user : ∀ i, p ≠ .user i)
    (call : ∀ k, p ≠ .call k) : Shaped (holds o p) :=
  ⟨fun same => absurd same engine,fun i same => absurd same (user i),fun k same => absurd same (call k),
    fun _ held => nomatch held⟩

/- A change that releases nothing. -/
theorem gainsLawful (lost : c.lost = []) (left : c.left = []) (fits : Fits w.heap c.new c.gained)
    (fresh : ∀ o ∈ c.new, o ∉ w.known) (shaped : ∀ r ∈ c.gained, Shaped r)
    (members : ∀ o ∈ c.new, ∀ p ∈ members o, holds o p ∈ c.gained)
    (contexts : ∀ i, .context i ∈ c.new → .dumThread i ∈ c.new ∧ holds .engine (.context i) ∈ c.gained)
    (calls : ∀ k, .call k ∈ c.new → .user k.user ∈ w.heap.live ∧
      (k.incoming = true → holds (.user k.user) (.call k) ∈ c.gained))
    (locked : ∀ k t, handle t (.call k) ∈ c.gained → .call k ∈ c.new ∨ .call k ∈ w.heap.live)
    (entered : ∀ i, ∀ r ∈ c.gained, r.holder = .root (.dum i) → i ∉ w.left ∧ .context i ∈ w.known) :
    Lawful w c := by
  refine ⟨fits,fresh,shaped,by simp [lost],members,fun i new => (contexts i new).1,
    fun k new => ⟨lost,calls k new⟩,locked,.inl lost,by simp [lost],fun i => ⟨fun new => (contexts i new).2,?_⟩,
    fun i => ⟨entered i,?_⟩,?_⟩
  · simp [lost]
  · simp [left]
  · simp [lost]

theorem createLawful {i : Nat} (inv : Inv w) (ok : create i w = some c) : Lawful w c := by
  obtain ⟨enabled,rfl⟩ := whenSome ok
  simp only [Bool.and_eq_true,hasIff,freshIff] at enabled
  have engine := inv.closed.targets _ enabled.1
  refine gainsLawful rfl rfl ⟨?_,?_⟩ enabled.2 (by simp) ?_ (by simp) (by simp) ?_ ?_
  · simpa [handle,holds] using engine
  · simp [handle,holds]
  · simp [members]
  · simp [handle,holds]
  · simp [handle,holds]

theorem createSessionUserLawful {i : Nat} (inv : Inv w) (ok : createSessionUser i w = some c) : Lawful w c := by
  obtain ⟨enabled,rfl⟩ := whenSome ok
  simp only [Bool.and_eq_true,hasIff,freshIff] at enabled
  have user : .user i ∈ w.heap.live := inv.closed.targets _ enabled.1
  have engine : .engine ∈ w.heap.live := inv.closed.targets _ (inv.members _ user _ (by simp [members]))
  refine gainsLawful rfl rfl ⟨?_,?_⟩ enabled.2 (by simp) (by simp [members]) (by simp) (by simp) ?_ ?_
  · simp [holds]
  · simp [holds,user,engine]
  · simp [handle,holds]
  · simp [holds]

theorem makeCallLawful {k : CallId} (inv : Inv w) (ok : makeCall k w = some c) : Lawful w c := by
  obtain ⟨enabled,rfl⟩ := whenSome ok
  simp only [Bool.and_eq_true,hasIff,freshIff,Bool.not_eq_true'] at enabled
  obtain ⟨⟨⟨held,session⟩,outgoing⟩,fresh⟩ := enabled
  have user : .user k.user ∈ w.heap.live := inv.closed.targets _ held
  have context : .context k.user ∈ w.heap.live := inv.closed.targets _ session
  refine gainsLawful rfl rfl ⟨?_,?_⟩ fresh (by simp) (by simp [members]) (by simp) ?_ ?_ ?_
  · simp [handle,holds,context]
  · simp [handle,holds]
  · simp [outgoing,user]
  · simp [handle,holds]
  · simp [handle,holds]

theorem inviteLawful {k : CallId} (ok : invite k w = some c) : Lawful w c := by
  obtain ⟨enabled,rfl⟩ := whenSome ok
  simp only [Bool.and_eq_true,liveIff,freshIff] at enabled
  obtain ⟨⟨⟨callContext,context⟩,_⟩,fresh⟩ := enabled
  refine gainsLawful rfl rfl ⟨?_,?_⟩ fresh (by simp) (by simp [members]) (by simp) (by simp) ?_ ?_
  · simp [holds,callContext]
  · simp [holds,context]
  · simp [handle,holds]
  · simp [holds]

theorem onCalleeLawful {k : CallId} (inv : Inv w) (ok : onCallee k w = some c) : Lawful w c := by
  obtain ⟨enabled,rfl⟩ := whenSome ok
  simp only [Bool.and_eq_true,freshIff] at enabled
  obtain ⟨⟨ready,incoming⟩,fresh⟩ := enabled
  obtain ⟨context,_,stays⟩ := callsCases ready
  have known := inv.known _ context
  split
  · rename_i user
    rw [liveIff] at user
    refine gainsLawful rfl rfl ⟨?_,?_⟩ fresh (by simp) (by simp [members]) (by simp) ?_ ?_ ?_
    · simp [handle,holds,context,user]
    · simp [handle,holds,user]
    · simp [user]
    · simp [handle,holds]
    · simp [handle,holds,stays,known]
  · refine gainsLawful rfl rfl ⟨?_,?_⟩ (fun o new => fresh o (by simp at new; simp [new])) (by simp)
      (by simp [members]) (by simp) (by simp) ?_ ?_
    · simp [handle,holds,context]
    · simp [handle,holds]
    · simp [handle,holds]
    · simp [handle,holds,stays,known]

theorem observerKeepsLawful {k : CallId} (inv : Inv w) (ok : observerKeeps k w = some c) : Lawful w c := by
  obtain ⟨enabled,rfl⟩ := whenSome ok
  simp only [Bool.and_eq_true,hasIff] at enabled
  have call : .call k ∈ w.heap.live := inv.closed.targets _ enabled.1
  refine gainsLawful rfl rfl ⟨?_,?_⟩ (by simp) (by simp) (by simp) (by simp) (by simp) ?_ ?_
  · simp [handle,call]
  · simp [handle]
  · simp [handle,call]
  · simp [handle]

theorem onLoginResultLawful {i : Nat} (inv : Inv w) (ok : onLoginResult i w = some c) : Lawful w c := by
  obtain ⟨enabled,rfl⟩ := whenSome ok
  simp only [Bool.and_eq_true,liveIff] at enabled
  obtain ⟨context,_,stays⟩ := callsCases enabled.1
  refine gainsLawful rfl rfl ⟨?_,?_⟩ (by simp) (by simp) (by simp) (by simp) (by simp) ?_ ?_
  · simp [handle,enabled.2]
  · simp [handle]
  · simp [handle]
  · simp [handle,stays,inv.known _ context]

theorem onCallLawful {k : CallId} (inv : Inv w) (ok : onCall k w = some c) : Lawful w c := by
  obtain ⟨enabled,rfl⟩ := whenSome ok
  simp only [Bool.and_eq_true,liveIff] at enabled
  obtain ⟨context,_,stays⟩ := callsCases enabled.1
  have known := inv.known _ context
  have callContext : .callContext k ∈ w.heap.live :=
    inv.closed.targets _ (inv.members _ enabled.2 _ (by simp [members]))
  refine gainsLawful rfl rfl ⟨?_,?_⟩ (by simp) ?_ (by simp) (by simp) (by simp) ?_ ?_
  · split <;> simp_all [handle]
  · split <;> simp [handle]
  · split <;> simp
  · split <;> simp_all [handle]
  · split <;> simp [handle,stays,known]

/- The end of createAppDialogSet takes hold of the dialog set before it lets go. -/
theorem dialogSetCreatedLawful {k : CallId} (inv : Inv w) (ok : dialogSetCreated k w = some c) : Lawful w c := by
  obtain ⟨enabled,rfl⟩ := whenSome ok
  simp only [Bool.and_eq_true,hasIff,liveIff,freshIff] at enabled
  obtain ⟨⟨frame,context⟩,fresh⟩ := enabled
  have callContext : .callContext k ∈ w.heap.live := inv.closed.targets _ frame
  have held : handle (.dum k.user) (.callContext k) ∈ frames k.user w := List.mem_filter.mpr ⟨frame,by simp [handle]⟩
  refine ⟨⟨?_,?_⟩,fresh,by simp,fun r => frameReleased,by simp [members],by simp,by simp,?_,.inr ?_,fun j gone => ?_,
    fun i => ⟨by simp,fun gone => ?_⟩,fun i => ⟨by simp [holds],by simp⟩,fun i same _ => ?_⟩
  · simp [holds,callContext]
  · simp [holds,context]
  · simp [handle,holds]
  · simp [Silent,holds]
  · exact nomatch (frameCases gone).2
  · exact nomatch (frameCases gone).2
  · cases same
    exact List.ne_nil_of_mem held

theorem onCalleeQuitLawful {k : CallId} (ok : onCalleeQuit k w = some c) : Lawful w c := by
  obtain ⟨_,rfl⟩ := whenSome ok
  refine releasesLawful rfl rfl ?_ ?_ ?_ (by simp) ?_
  · simpa using Released.callee k
  · simp [holds]
  · simp [holds]
  · simp [handle,holds]

theorem returnsLawful {i : Nat} (ok : returns i w = some c) : Lawful w c := by
  obtain ⟨_,rfl⟩ := whenSome ok
  refine releasesLawful rfl rfl (fun _ => frameReleased) (fun _ gone => nomatch (frameCases gone).2)
    (fun _ gone => nomatch (frameCases gone).2) (by simp) ?_
  rintro j same ⟨t,o,gone⟩
  cases same
  exact List.ne_nil_of_mem gone

theorem dialogSetDestroyedLawful {k : CallId} (ok : dialogSetDestroyed k w = some c) : Lawful w c := by
  obtain ⟨_,rfl⟩ := whenSome ok
  refine releasesLawful rfl rfl ?_ ?_ ?_ (by simp) ?_
  · simpa using Released.dialogSet k
  · simp [holds]
  · simp [holds]
  · simp [handle,holds]

theorem onUserDeletedLawful {i : Nat} (ok : onUserDeleted i w = some c) : Lawful w c := by
  obtain ⟨enabled,rfl⟩ := whenSome ok
  obtain ⟨_,idle,_⟩ := callsCases (Bool.and_eq_true_iff.mp enabled).1
  refine releasesLawful rfl rfl ?_ ?_ ?_ ?_ ?_
  · simpa using Released.listed i
  · simp [holds]
  · simp [holds]
  · simpa using idle
  · simp [handle,holds]

theorem dropLawful {t : Thread} {o : Object} (ok : drop t o w = some c) : Lawful w c := by
  obtain ⟨enabled,rfl⟩ := whenSome ok
  rw [Bool.and_eq_true,hasIff] at enabled
  refine releasesLawful rfl rfl ?_ ?_ ?_ (by simp) ?_
  · simpa using Released.handle enabled.1
  · simp [handle,holds]
  · simp [handle,holds]
  · rintro j same _
    cases same
    simpa using enabled.2

theorem changeLawful {e : Event} (inv : Inv w) (ok : changeOf w e = some c) : Lawful w c := by
  cases e with
  | create i => exact createLawful inv ok
  | createSessionUser i => exact createSessionUserLawful inv ok
  | makeCall k => exact makeCallLawful inv ok
  | invite k => exact inviteLawful ok
  | onCallee k => exact onCalleeLawful inv ok
  | observerKeeps k => exact observerKeepsLawful inv ok
  | dialogSetCreated k => exact dialogSetCreatedLawful inv ok
  | onLoginResult i => exact onLoginResultLawful inv ok
  | onCall k => exact onCallLawful inv ok
  | onCalleeQuit k => exact onCalleeQuitLawful ok
  | returns i => exact returnsLawful ok
  | dialogSetDestroyed k => exact dialogSetDestroyedLawful ok
  | onUserDeleted i => exact onUserDeletedLawful ok
  | drop t o => exact dropLawful ok

theorem stepChange {u : World} {e : Event} (inv : Inv w) (ok : step w e = some u) :
    ∃ c, changeOf w e = some c ∧ Lawful w c ∧ u = c.apply w := by
  obtain ⟨c,change,rfl⟩ := Option.map_eq_some_iff.mp ok
  exact ⟨c,change,changeLawful inv change,rfl⟩

theorem startInv : Inv World.start := by
  refine ⟨⟨?_,?_⟩,?_,?_,?_,?_,?_,?_,?_,?_,?_,?_⟩
  · simp [World.start,handle]
  · simp [World.start,handle]
  · simp [World.start,Heap.Owned,handle]
  · simp only [World.start,List.mem_singleton,forall_eq]
    exact ⟨fun _ => .inl rfl,by simp [handle],by simp [handle],by simp [handle]⟩
  · simp [World.start]
  · simp [World.start,members]
  · simp [World.start]
  · simp [World.start]
  · simp [World.start]
  · simp [World.start]
  · simp [World.start]
  · simp [World.start,handle]

end

end RtcCall.Custody
