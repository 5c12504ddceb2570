import RtcCall.Call.Handles

/-! What stays when nobody holds anything any more. Who holds whom goes one way, from the
CallUser to the contexts of its calls, except at a SipUserContext, which its thread, its
factory and its dialog sets lead back to. -/
namespace RtcCall.Leaks
open Ownership Custody Handles StepRuns

/- Who can hold whom. -/
inductive Edge : Object → Object → Prop where
  | listed (i : Nat) : Edge .engine (.context i)
  | engine (i : Nat) : Edge (.user i) .engine
  | sipUser (i : Nat) : Edge (.user i) (.context i)
  | callee (k : CallId) : Edge (.user k.user) (.call k)
  | sipCall (k : CallId) : Edge (.call k) (.callContext k)
  | userContext (k : CallId) : Edge (.callContext k) (.context k.user)
  | thread (i : Nat) : Edge (.context i) (.dumThread i)
  | threadContext (i : Nat) : Edge (.dumThread i) (.context i)
  | factory (i : Nat) : Edge (.context i) (.dialogSetFactory i)
  | factoryContext (i : Nat) : Edge (.dialogSetFactory i) (.context i)
  | dialogSet (k : CallId) : Edge (.context k.user) (.dialogSet k)
  | dialogContext (k : CallId) : Edge (.dialogSet k) (.callContext k)

attribute [simp] Edge.listed Edge.engine Edge.sipUser Edge.callee Edge.sipCall Edge.userContext Edge.thread
  Edge.threadContext Edge.factory Edge.factoryContext Edge.dialogSet Edge.dialogContext

def Drawn (r : Reference) : Prop := ∀ o, r.holder = .object o → Edge o r.target

@[simp] theorem handleDrawn (t : Thread) (o : Object) : Drawn (handle t o) := nofun

@[simp] theorem holdsDrawn {o p : Object} : Drawn (holds o p) ↔ Edge o p := by
  simp [Drawn,holds]

section
variable {w u : World} {c : Change} {e : Event}

theorem gainedDrawn (ok : changeOf w e = some c) : ∀ r ∈ c.gained, Drawn r := by
  cases e with
  | onCallee k =>
    obtain ⟨_,rfl⟩ := whenSome ok
    split <;> simp
  | onCall k =>
    obtain ⟨_,rfl⟩ := whenSome ok
    split <;> simp
  | _ =>
    obtain ⟨_,rfl⟩ := whenSome ok
    simp

end

/- Every reference between two objects is one of those. -/
structure Whole (w : World) : Prop where
  inv : Inv w
  drawn : ∀ r ∈ w.heap.refs, Drawn r

theorem keepsWhole : Keeps step (fun _ _ => True) Whole := by
  intro w e u ⟨inv,drawn⟩ _ ok
  obtain ⟨c,change,lawful,rfl⟩ := stepChange inv ok
  refine ⟨keepsInv inv lawful,fun r there => ?_⟩
  rcases changeRefs there with fresh | ⟨old,_⟩
  · exact gainedDrawn change r fresh
  · exact drawn r old

theorem startWhole : Whole World.start := ⟨startInv,by simp [World.start]⟩

/- A context whose Initialize has run. -/
def Initialized (w : World) (o : Object) : Prop := ∃ i, o = .context i ∧ .context i ∈ w.known

def rank : Object → Nat
  | .user _ => 0
  | .engine | .call _ | .dialogSet _ => 1
  | .callContext _ | .context _ | .dumThread _ | .dialogSetFactory _ => 2

/- What a context that nobody needs any more keeps alive with it. -/
def Leaked (w : World) (i : Nat) : Object → Prop
  | .context j | .dumThread j | .dialogSetFactory j => j = i
  | .dialogSet k | .callContext k => k.user = i ∧ holds (.context i) (.dialogSet k) ∈ w.heap.refs
  | .engine | .user _ | .call _ => False

/- Neither the application nor any thread holds anything. -/
def Deserted (w : World) : Prop := ∀ r ∈ w.heap.refs, fromRoot r = false

section
variable {w : World} (whole : Whole w)
include whole

theorem initialized {i : Nat} (live : .context i ∈ w.heap.live) : Initialized w (.context i) :=
  ⟨i,rfl,whole.inv.known _ live⟩

theorem initializedLive {o : Object} (there : Initialized w o) : o ∈ w.heap.live := by
  obtain ⟨i,rfl,known⟩ := there
  exact (whole.inv.contexts i known _ (.inl rfl)).1

theorem upwards (m n : Object) (there : ⟨.object m,n⟩ ∈ w.heap.refs) :
    Initialized w m ∨ Initialized w n ∨ rank m < rank n := by
  have source := whole.inv.closed.holders _ there m rfl
  have target := whole.inv.closed.targets _ there
  cases whole.drawn _ there m rfl with
  | listed | sipUser | userContext | threadContext | factoryContext => exact .inr (.inl (initialized whole target))
  | thread | factory | dialogSet => exact .inl (initialized whole source)
  | engine | callee | sipCall | dialogContext => exact .inr (.inr (Nat.le_refl _))

theorem liveIffReached (o : Object) : o ∈ w.heap.live ↔ Reached w.heap (Initialized w) o :=
  ⟨liveReached whole.inv.closed whole.inv.owned rank (upwards whole),
    reachedLive whole.inv.closed (fun _ => initializedLive whole)⟩

theorem desertedLeaked (deserted : Deserted w) {o : Object} (reached : Reached w.heap (Initialized w) o) :
    ∃ i, .context i ∈ w.known ∧ Leaked w i o := by
  induction reached with
  | kept stays =>
    obtain ⟨i,rfl,known⟩ := stays
    exact ⟨i,known,rfl⟩
  | root there => exact absurd (deserted _ there) (by simp [fromRoot])
  | @object m n before there ih =>
    obtain ⟨i,known,leaked⟩ := ih
    have target := whole.inv.closed.targets _ there
    cases whole.drawn _ there m rfl with
    | listed | engine | sipUser | callee | sipCall => exact leaked.elim
    | userContext k => exact ⟨k.user,whole.inv.known _ target,rfl⟩
    | thread j | threadContext j | factory j | factoryContext j => exact ⟨i,known,leaked⟩
    | dialogSet k => exact ⟨k.user,by rwa [show k.user = i from leaked],rfl,there⟩
    | dialogContext k => exact ⟨i,known,leaked⟩

theorem leakedLive {i : Nat} (known : .context i ∈ w.known) {o : Object} (leaked : Leaked w i o) :
    o ∈ w.heap.live := by
  have context := initializedLive whole ⟨i,rfl,known⟩
  have member : ∀ {p q : Object}, p ∈ w.heap.live → q ∈ members p → q ∈ w.heap.live :=
    fun live inside => whole.inv.closed.targets _ (whole.inv.members _ live _ inside)
  cases o with
  | context j => cases leaked; exact context
  | dumThread j => cases leaked; exact member context (by simp [members])
  | dialogSetFactory j => cases leaked; exact member context (by simp [members])
  | dialogSet k => exact whole.inv.closed.targets _ leaked.2
  | callContext k => exact member (whole.inv.closed.targets _ leaked.2) (by simp [members,holds])
  | engine | user | call => exact leaked.elim

end

/- In every state of a run, what is live is what can be reached from a handle, from a
thread, or from a SipUserContext that was initialized. When nobody holds anything any
more, what stays are those contexts, each with its thread, its factory and the dialog
sets that were not destroyed: no engine, no CallUser and no Call. -/
theorem leaksExactly (events : List Event) :
    Visits step (fun w =>
      (∀ o, o ∈ w.heap.live ↔ Reached w.heap (Initialized w) o) ∧
      (Deserted w → ∀ o, o ∈ w.heap.live ↔ ∃ i, .context i ∈ w.known ∧ Leaked w i o)) World.start events :=
  visitsMono (fun _ whole => ⟨liveIffReached whole,fun deserted o =>
      ⟨fun live => desertedLeaked whole deserted ((liveIffReached whole o).mp live),
        fun ⟨_,known,leaked⟩ => leakedLive whole known leaked⟩⟩)
    (visitsOfKeeps keepsWhole startWhole (meetsOfEvents (fun _ _ _ => trivial) _))

/- The application drops everything; the SipUserContext stays. -/
example : (run step World.start
    [.create 0,.createSessionUser 0,.makeCall ⟨0,0,false⟩,.drop .app (.call ⟨0,0,false⟩),.drop .app (.user 0),
      .drop .app .engine]).map (·.heap.live) = some [.context 0,.dumThread 0,.dialogSetFactory 0] := by
  decide

end RtcCall.Leaks
