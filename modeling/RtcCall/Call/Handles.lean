import RtcCall.Call.Custody

/-! What the strong references of the program come to over a run: a context that nothing
can destroy, Calls that the application need not keep, and the two orders in which an
application must not let go of its handles. -/
namespace RtcCall.Handles
open Ownership Custody StepRuns

theorem keepsCustody : Keeps step (fun _ _ => True) Inv := by
  intro w e u inv _ ok
  obtain ⟨c,_,lawful,rfl⟩ := stepChange inv ok
  exact keepsInv inv lawful

theorem reachedInv (events : List Event) : Visits step Inv World.start events :=
  visitsOfKeeps keepsCustody startInv (meetsOfEvents (fun _ _ _ => trivial) _)

/- A SipUserContext that was initialized is never destroyed, whoever lets go of it: its
DumThreadWrapper holds it, and it holds its DumThreadWrapper. -/
theorem contextsNeverDestroyed (events : List Event) :
    Visits step (fun w => ∀ i, .context i ∈ w.known → .context i ∈ w.heap.live) World.start events :=
  visitsMono (fun _ inv i known => (inv.contexts i known _ (.inl rfl)).1) (reachedInv events)

/- An incoming Call outlives every handle of the application, until its OnCalleeQuit or
the end of its CallUser; and what is live has all it was made with. -/
theorem calleesKept (events : List Event) :
    Visits step (fun w =>
      (∀ k, .call k ∈ w.known → k.incoming = true → k ∉ w.quits → .user k.user ∈ w.heap.live →
        .call k ∈ w.heap.live) ∧
      ∀ o ∈ w.heap.live, ∀ p ∈ members o, p ∈ w.heap.live) World.start events :=
  visitsMono (fun _ inv => ⟨fun k known incoming stays user =>
      inv.closed.targets _ (inv.callees k known incoming stays user),
    fun o live p inside => inv.closed.targets _ (inv.members o live p inside)⟩) (reachedInv events)

/-! Two things the application can get wrong. A step is looked at by what it releases. -/

def released (w : World) (e : Event) : List Reference := ((changeOf w e).map (·.lost)).getD []

def fromRoot (r : Reference) : Bool := match r.holder with
  | .root _ => true
  | .object _ => false

/- A thread or the application still holds the object after the release. -/
def Rooted (w : World) (lost : List Reference) (o : Object) : Prop :=
  w.heap.refs.any (fun r => !lost.contains r && r.target == o && fromRoot r) = true
instance (w lost o) : Decidable (Rooted w lost o) := instDecidableEqBool _ _

def userOf : Object → Option Object
  | .call k => some (.user k.user)
  | _ => none

/- The `user_` of every live Call is a live CallUser. -/
def UsersThere (w : World) : Prop := ∀ o ∈ w.heap.live, ∀ u ∈ userOf o, u ∈ w.heap.live
instance (w) : Decidable (UsersThere w) := by unfold UsersThere; infer_instance

/- No CallUser loses its last handle while one of its Calls keeps one. -/
def UserOutlives (w : World) (e : Event) : Prop :=
  ∀ o ∈ w.heap.live, ∀ u ∈ userOf o, Rooted w (released w e) o → Rooted w (released w e) u
instance (w e) : Decidable (UserOutlives w e) := by unfold UserOutlives; infer_instance

section
variable {w : World} {c : Change}

theorem rootedIff {lost : List Reference} {o : Object} :
    Rooted w lost o ↔ ∃ t, handle t o ∈ w.heap.refs ∧ handle t o ∉ lost := by
  simp only [Rooted,List.any_eq_true,Bool.and_eq_true,Bool.not_eq_true',beq_iff_eq]
  constructor
  · rintro ⟨⟨holder,target⟩,there,⟨kept,rfl⟩,root⟩
    cases holder with
    | root t => exact ⟨t,there,by simpa [handle] using kept⟩
    | object n => cases root
  · rintro ⟨t,there,kept⟩
    exact ⟨handle t o,there,⟨by simpa using kept,rfl⟩,rfl⟩

theorem userRooted {i : Nat} (inv : Inv w) (live : .user i ∈ w.heap.live) : Rooted w [] (.user i) := by
  obtain ⟨r,there,same⟩ := inv.owned _ live
  obtain ⟨t,rfl⟩ := (inv.shaped r there).user i same
  exact rootedIff.mpr ⟨t,there,by simp⟩

theorem rootedLive {o : Object} (inv : Inv w) (lawful : Lawful w c) (rooted : Rooted w c.lost o) :
    o ∈ (c.apply w).heap.live := by
  obtain ⟨t,there⟩ := rootedIff.mp rooted
  exact changeRooted inv.closed lawful.fits (.inr there)

/- A CallUser that lives on lost nothing, or is still held from outside. -/
theorem userKept {i : Nat} (inv : Inv w) (lawful : Lawful w c) (live : .user i ∈ (c.apply w).heap.live) :
    c.lost = [] ∨ Rooted w c.lost (.user i) := by
  obtain ⟨r,there,same⟩ := (keepsInv inv lawful).owned _ live
  obtain ⟨t,rfl⟩ := (appliedShaped inv lawful there).user i same
  rcases changeRefs there with fresh | old
  · exact lawful.quiet.imp id (fun silent => absurd rfl ((silent _ fresh).2.1 i))
  · exact .inr (rootedIff.mpr ⟨t,old⟩)

theorem outlivesThere (inv : Inv w) (lawful : Lawful w c) (there : UsersThere w)
    (outlives : ∀ o ∈ w.heap.live, ∀ u ∈ userOf o, Rooted w c.lost o → Rooted w c.lost u) :
    UsersThere (c.apply w) := by
  intro o live u owner
  cases o with
  | call k =>
    cases Option.some.inj owner
    obtain ⟨r,held,same⟩ := (keepsInv inv lawful).owned _ live
    rcases (appliedShaped inv lawful held).call k same with ⟨t,rfl⟩ | rfl
    · rcases changeRefs held with fresh | old
      · -- the call has just been locked, or was made for the user
        have empty : c.lost = [] := lawful.quiet.elim id (fun silent => absurd rfl ((silent _ fresh).2.2 k))
        have before : .user k.user ∈ w.heap.live := by
          rcases lawful.locked k t fresh with new | before
          · exact (lawful.calls k new).2.1
          · exact there _ before _ rfl
        have rooted := userRooted inv before
        rw [← empty] at rooted
        exact rootedLive inv lawful rooted
      · have before : .call k ∈ w.heap.live := inv.closed.targets _ old.1
        exact rootedLive inv lawful (outlives _ before _ rfl (rootedIff.mpr ⟨t,old⟩))
    · exact (appliedClosed inv lawful).holders _ held _ rfl
  | _ => cases owner

theorem brokenMissing (inv : Inv w) (lawful : Lawful w c) (there : UsersThere w)
    (broken : ¬ ∀ o ∈ w.heap.live, ∀ u ∈ userOf o, Rooted w c.lost o → Rooted w c.lost u) :
    ¬ UsersThere (c.apply w) := by
  intro after
  refine broken (fun o before u owner rooted => ?_)
  cases o with
  | call k =>
    cases Option.some.inj owner
    rcases userKept inv lawful (after _ (rootedLive inv lawful rooted) _ rfl) with empty | held
    · rw [empty]
      exact userRooted inv (there _ before _ rfl)
    · exact held
  | _ => cases owner

end

theorem releasedOf {w : World} {e : Event} {c : Change} (change : changeOf w e = some c) : released w e = c.lost := by
  rw [released,change]
  rfl

/- Every live Call has its CallUser, in every state of a run, exactly when no step takes
the last handle of a CallUser from under a Call that is still held. -/
theorem usersThereExactly (events : List Event) :
    Visits step UsersThere World.start events ↔ Meets step UserOutlives World.start events := by
  have keep : Keeps step (fun w e => True ∧ UserOutlives w e) (fun w => Inv w ∧ UsersThere w) := by
    intro w e u ⟨inv,there⟩ ⟨_,outlives⟩ ok
    obtain ⟨c,change,lawful,rfl⟩ := stepChange inv ok
    rw [UserOutlives,releasedOf change] at outlives
    exact ⟨keepsInv inv lawful,outlivesThere inv lawful there outlives⟩
  have breaks : ∀ w e u, (Inv w ∧ UsersThere w) → True → ¬ UserOutlives w e → step w e = some u → ¬ UsersThere u := by
    intro w e u ⟨inv,there⟩ _ broken ok
    obtain ⟨c,change,lawful,rfl⟩ := stepChange inv ok
    rw [UserOutlives,releasedOf change] at broken
    exact brokenMissing inv lawful there broken
  exact visitsIffMeets keep (fun _ now => now.2) breaks ⟨startInv,by decide⟩
    (meetsOfEvents (fun _ _ _ => trivial) _)

/- The application keeps a Call and drops the CallUser. -/
theorem userMissing : ¬ Visits step UsersThere World.start
    [.create 0,.createSessionUser 0,.makeCall ⟨0,0,false⟩,.drop .app (.user 0)] := by
  decide

/-! The destructor of the engine waits for the DUM thread of every user that is listed. -/

def thread (w : World) (e : Event) : Thread := ((changeOf w e).map (·.thread)).getD .app

def isUser : Object → Bool
  | .user _ => true
  | _ => false

/- What a DUM thread releases is never the last that keeps the engine: the application
still has it, or somebody a CallUser. -/
def EngineOutlives (w : World) (e : Event) : Prop :=
  thread w e ≠ .app → .engine ∈ w.heap.live →
    Rooted w (released w e) .engine ∨ ∃ o ∈ w.heap.live, isUser o = true ∧ Rooted w (released w e) o
instance (w e) : Decidable (EngineOutlives w e) := by unfold EngineOutlives; infer_instance

section
variable {w : World} {c : Change}

theorem engineHolder (inv : Inv w) (live : .engine ∈ w.heap.live) :
    handle .app .engine ∈ w.heap.refs ∨ ∃ i, .user i ∈ w.heap.live := by
  obtain ⟨r,there,same⟩ := inv.owned _ live
  rcases (inv.shaped r there).engine same with rfl | ⟨i,rfl⟩
  · exact .inl there
  · exact .inr ⟨i,inv.closed.holders _ there _ rfl⟩

theorem engineKept (inv : Inv w) (lawful : Lawful w c)
    (outlives : Rooted w c.lost .engine ∨ ∃ o ∈ w.heap.live, isUser o = true ∧ Rooted w c.lost o) :
    .engine ∈ (c.apply w).heap.live := by
  rcases outlives with rooted | ⟨o,_,user,rooted⟩
  · exact rootedLive inv lawful rooted
  · cases o with
    | user i =>
      have live := rootedLive inv lawful rooted
      exact (appliedClosed inv lawful).targets _ (appliedMembers inv lawful _ live .engine (by simp [members]))
    | _ => cases user

/- A thread that takes away the last has had something to let go of. -/
theorem lastReleased (inv : Inv w) (live : .engine ∈ w.heap.live)
    (broken : ¬ (Rooted w c.lost .engine ∨ ∃ o ∈ w.heap.live, isUser o = true ∧ Rooted w c.lost o)) :
    ∃ t o, handle t o ∈ c.lost := by
  have gone : ∀ {t o}, handle t o ∈ w.heap.refs → ¬ Rooted w c.lost o → handle t o ∈ c.lost := by
    intro t o there free
    exact Decidable.byContradiction (fun kept => free (rootedIff.mpr ⟨t,there,kept⟩))
  rcases engineHolder inv live with there | ⟨i,user⟩
  · exact ⟨_,_,gone there (fun rooted => broken (.inl rooted))⟩
  · obtain ⟨t,there,_⟩ := rootedIff.mp (userRooted inv user)
    exact ⟨_,_,gone there (fun rooted => broken (.inr ⟨_,user,rfl,rooted⟩))⟩

theorem engineDestroyed (inv : Inv w) (lawful : Lawful w c) (live : .engine ∈ w.heap.live)
    (broken : ¬ (Rooted w c.lost .engine ∨ ∃ o ∈ w.heap.live, isUser o = true ∧ Rooted w c.lost o)) :
    .engine ∉ (c.apply w).heap.live := by
  intro after
  obtain ⟨t,o,gone⟩ := lastReleased inv live broken
  have silent := lawful.quiet.resolve_left (fun empty => by simp [empty] at gone)
  rcases engineHolder (keepsInv inv lawful) after with there | ⟨i,user⟩
  · rcases changeRefs there with fresh | old
    · exact (silent _ fresh).1 rfl
    · exact broken (.inl (rootedIff.mpr ⟨_,old⟩))
  · have before : .user i ∈ w.heap.live := by
      rcases changeLive user with new | old
      · exact absurd rfl ((silent _ (lawful.members _ new .engine (by simp [members]))).1)
      · exact old
    rcases userKept inv lawful user with empty | rooted
    · simp [empty] at gone
    · exact broken (.inr ⟨_,before,rfl,rooted⟩)

/- The thread that destroys the engine is in a callback, so its user is still listed. -/
theorem listedStill {i : Nat} (inv : Inv w) (lawful : Lawful w c) (same : c.thread = .dum i)
    (live : .engine ∈ w.heap.live)
    (broken : ¬ (Rooted w c.lost .engine ∨ ∃ o ∈ w.heap.live, isUser o = true ∧ Rooted w c.lost o)) :
    holds .engine (.context i) ∈ w.heap.refs := by
  obtain ⟨r,frame⟩ := List.exists_mem_of_ne_nil _ (lawful.busy i same (lastReleased inv live broken))
  obtain ⟨there,held⟩ := List.mem_filter.mp frame
  obtain ⟨stays,known⟩ := inv.running i r there (eq_of_beq held)
  exact inv.listed i known stays live

end

/- No DUM thread has come to destroy the engine, in any state of a run, exactly when none
releases the last that keeps it; one that does waits for itself. -/
theorem enginesDestroyedExactly (events : List Event) :
    Visits step (fun w => w.stuck = []) World.start events ↔ Meets step EngineOutlives World.start events := by
  have same : ∀ {w e c}, changeOf w e = some c → (EngineOutlives w e ↔ (c.thread ≠ .app → .engine ∈ w.heap.live →
      Rooted w c.lost .engine ∨ ∃ o ∈ w.heap.live, isUser o = true ∧ Rooted w c.lost o)) := by
    intro w e c change
    rw [EngineOutlives,releasedOf change,thread,change]
    rfl
  have keep : Keeps step (fun w e => True ∧ EngineOutlives w e) (fun w => Inv w ∧ w.stuck = []) := by
    intro w e u ⟨inv,free⟩ ⟨_,outlives⟩ ok
    obtain ⟨c,change,lawful,rfl⟩ := stepChange inv ok
    rw [same change] at outlives
    refine ⟨keepsInv inv lawful,?_⟩
    simp only [Change.apply]
    split
    · rename_i i dum
      by_cases live : .engine ∈ w.heap.live
      · have kept := engineKept inv lawful (outlives (by simp [dum]) live)
        rw [if_neg (fun gone => gone.2.1 kept)]
        exact free
      · rw [if_neg (fun gone => live gone.1)]
        exact free
    · exact free
  have breaks : ∀ w e u, (Inv w ∧ w.stuck = []) → True → ¬ EngineOutlives w e → step w e = some u → u.stuck ≠ [] := by
    intro w e u ⟨inv,_⟩ _ broken ok
    obtain ⟨c,change,lawful,rfl⟩ := stepChange inv ok
    rw [same change] at broken
    obtain ⟨onDum,broken⟩ := Decidable.not_imp_iff_and_not.mp broken
    obtain ⟨live,last⟩ := Decidable.not_imp_iff_and_not.mp broken
    cases thread : c.thread with
    | app => exact absurd thread onDum
    | dum i =>
      have gone := engineDestroyed inv lawful live last
      simp only [Change.apply,thread]
      rw [if_pos ⟨live,gone,listedStill inv lawful thread live last⟩]
      exact List.cons_ne_nil _ _
  exact visitsIffMeets keep (fun _ now => now.2) breaks ⟨startInv,rfl⟩ (meetsOfEvents (fun _ _ _ => trivial) _)

/- The application drops the engine, and then the CallUser while OnLogin is running: the
DUM thread has the last handle. -/
theorem engineOnDumThread : ¬ Visits step (fun w => w.stuck = []) World.start
    [.create 0,.createSessionUser 0,.drop .app .engine,.onLoginResult 0,.drop .app (.user 0),.returns 0] := by
  decide

end RtcCall.Handles
