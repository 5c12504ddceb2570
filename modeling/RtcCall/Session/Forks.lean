import RtcCall.Session.CallContext

/-! The forks of an INVITE share one context, which holds the handle of the session
announced last. Once a fork is answered the application expects its operations to
act on that fork until it terminates. -/
namespace RtcCall.Forks
open CallContext StepRuns

/- The closures that the context builds now reach the session `s`, run at any later
time at which `s` is still there; End's neither sends a CANCEL nor ends another one. -/
structure ActsOn (s : SessionId) (w : World) : Prop where
  operations : ∀ t op calls u, (u.valid (some s)).isSome = true → op.calls = .ok calls →
    execute (.operation t w.h op) u = some (callSession t s op calls u)
  ends : ∀ u x, u.valid (some s) = some x → endNow w.h u = endSession x u
  localSdp : getLocalSdp w = (w.valid (some s)).bind (·.localSdp)

def Answered (x : Session) : Prop := x.connected = true ∧ x.live = true

def AnsweredFollowed (w : World) : Prop := ∀ x ∈ w.sessions, Answered x → ActsOn x.id w

/- The state before a step: no session is announced over an answered one, and the
session that is answered is the one announced last. -/
def AnsweredLast (w : World) : Event → Prop
  | .newSession _ _ => ∀ x ∈ w.sessions, ¬ Answered x
  | .connected s _ => w.h = some s
  | _ => True

theorem validId {w : World} {s : SessionId} {x : Session} (found : w.valid (some s) = some x) : x.id = s := by
  have passed := List.find?_some found
  simpa using passed

theorem actsOnHeld {s : SessionId} {w : World} (held : w.h = some s) : ActsOn s w := by
  refine ⟨?_,?_,by rw [getLocalSdp,held]⟩
  · intro t op calls u there known
    obtain ⟨x,found⟩ := Option.isSome_iff_exists.mp there
    simp only [execute,held,found,known,validId found]
  · intro u x found
    simp only [endNow,held,found]

/- End tells the handle apart: among the sessions keep only the one in question. -/
theorem heldOfActsOn {x : Session} {w : World} (acts : ActsOn x.id w) : w.h = some x.id := by
  let alone : World := {w with sessions := [x]}
  have only : alone.valid (some x.id) = some x := by simp [alone,World.valid]
  by_contra different
  have other : alone.valid w.h = none := by
    cases held : w.h with
    | none => rfl
    | some s =>
      have apart : x.id ≠ s := fun same => different (by rw [held,same])
      simp [alone,World.valid,apart]
  have ended := endNowInvalid other
  rw [acts.ends alone x only] at ended
  simp [endSession] at ended

structure Holds (w : World) : Prop where
  answered : ∀ x ∈ w.sessions, Answered x → w.h = some x.id
  numbered : ∀ x ∈ w.sessions, x.id < w.fresh

theorem updatedFrom {w : World} {s : SessionId} {f : Session → Session} {y : Session}
    (member : y ∈ (w.updateSession s f).sessions) : ∃ x ∈ w.sessions, y = if x.id = s then f x else x := by
  obtain ⟨x,there,same⟩ := List.mem_map.mp member
  exact ⟨x,there,same.symm⟩

/- A change of sessions that answers none but the one the context holds. -/
theorem holdsUpdated {w u : World} {s : SessionId} {f : Session → Session} (h : Holds w)
    (named : ∀ x, (f x).id = x.id) (answers : ∀ x ∈ w.sessions, x.id = s → Answered (f x) → Answered x ∨ w.h = some s)
    (sessions : u.sessions = (w.updateSession s f).sessions) (handle : u.h = w.h) (fresh : u.fresh = w.fresh) :
    Holds u := by
  constructor
  · intro y member answered
    rw [sessions] at member
    obtain ⟨x,there,rfl⟩ := updatedFrom member
    rw [handle]
    split at answered
    · rename_i same
      rw [if_pos same,named]
      rcases answers x there same answered with before | held
      · exact h.answered x there before
      · rw [held,same]
    · rename_i different
      rw [if_neg different]
      exact h.answered x there answered
  · intro y member
    rw [sessions] at member
    obtain ⟨x,there,rfl⟩ := updatedFrom member
    rw [fresh]
    split
    · rw [named]; exact h.numbered x there
    · exact h.numbered x there

theorem terminatedNotLive {x : Session} : ¬ ({x with terminated := true} : Session).live = true := by
  simp [Session.live]

theorem keepsHolds : Keeps step (fun w e => True ∧ AnsweredLast w e) Holds := by
  intro w e u h ⟨_,last⟩ ok
  obtain ⟨_,sessions,handle,fresh⟩ := stepSessions ok
  cases e with
  | newSession i sdp =>
    constructor
    · intro y member answered
      rw [sessions] at member
      rcases List.mem_append.mp member with old | new
      · exact absurd answered (last y old)
      · cases List.mem_singleton.mp new
        exact absurd answered.1 (by simp)
    · intro y member
      rw [sessions] at member
      rw [fresh]
      rcases List.mem_append.mp member with old | new
      · exact Nat.lt_succ_of_lt (h.numbered y old)
      · cases List.mem_singleton.mp new
        exact Nat.lt_succ_self w.fresh
  | negotiated s sdp =>
    exact holdsUpdated (f := fun x => {x with localSdp := sdp}) h (fun _ => rfl)
      (fun _ _ _ answered => .inl answered) sessions handle fresh
  | connected s i =>
    exact holdsUpdated (f := fun x => {x with connected := true}) h (fun _ => rfl)
      (fun _ _ _ _ => .inr last) sessions handle fresh
  | terminated s i final =>
    exact holdsUpdated (f := fun x => {x with terminated := true}) h (fun _ => rfl)
      (fun _ _ _ answered => absurd answered.2 terminatedNotLive) sessions handle fresh
  | forkDestroyed s =>
    exact holdsUpdated (f := fun x => {x with terminated := true}) h (fun _ => rfl)
      (fun _ _ _ answered => absurd answered.2 terminatedNotLive) sessions handle fresh
  | destroySession s =>
    constructor
    · intro y member answered
      rw [sessions] at member
      rw [handle]
      exact h.answered y ((List.mem_filter.mp member).1) answered
    · intro y member
      rw [sessions] at member
      rw [fresh]
      exact h.numbered y ((List.mem_filter.mp member).1)
  | _ =>
    constructor
    · intro y member answered
      rw [sessions] at member
      rw [handle]
      exact h.answered y member answered
    · intro y member
      rw [sessions] at member
      rw [fresh]
      exact h.numbered y member

/- Announcing over an answered session, or answering another one, loses it at once. -/
theorem otherAnnouncedLost {w u : World} {e : Event} (h : Holds w) (bad : ¬ AnsweredLast w e)
    (ok : step w e = some u) : ¬ AnsweredFollowed u := by
  intro followed
  obtain ⟨_,sessions,handle,_⟩ := stepSessions ok
  cases e with
  | newSession i sdp =>
    apply bad
    intro x there answered
    have kept : x ∈ u.sessions := by rw [sessions]; exact List.mem_append_left _ there
    have held := heldOfActsOn (followed x kept answered)
    rw [handle] at held
    exact Nat.ne_of_gt (h.numbered x there) (Option.some.inj held)
  | connected s i =>
    obtain ⟨reported,_⟩ := whenExact ok
    obtain ⟨x,there,known⟩ := List.any_eq_true.mp reported
    simp only [Bool.and_eq_true,beq_iff_eq] at known
    have kept : ({x with connected := true} : Session) ∈ u.sessions := by
      rw [sessions]
      exact List.mem_map.mpr ⟨x,there,if_pos known.1.1⟩
    have held := heldOfActsOn (followed _ kept ⟨rfl,known.2⟩)
    rw [handle] at held
    exact bad (held.trans (congrArg some known.1.1))
  | _ => exact bad trivial

theorem answeredForkFollowed (events : List Event) :
    Visits step AnsweredFollowed (World.initial .caller) events ↔
      Meets step AnsweredLast (World.initial .caller) events :=
  visitsIffMeets keepsHolds (fun _ h x there answered => actsOnHeld (h.answered x there answered))
    (fun _ _ _ h _ bad ok => otherAnnouncedLost h bad ok)
    ⟨by simp [World.initial],by simp [World.initial]⟩ (meetsOfEvents (fun _ _ _ => trivial) _)

/- Two forks ring, then the first one is answered. -/
def firstForkAnswered : List Event :=
  [.newCall,.invite .dum none,.newSession 0 none,.newSession 0 none,.connected 0 0]

/- The context still holds the fork that was announced last: End ends that one. -/
theorem answeredForkLost :
    ¬ ∀ events : List Event, Visits step AnsweredFollowed (World.initial .caller) events := by
  intro all
  obtain ⟨w,ran,held,sessions⟩ : ∃ w, run step (World.initial .caller) firstForkAnswered = some w ∧
      w.h = some 1 ∧ ⟨0,0,true,false,none⟩ ∈ w.sessions := ⟨_,rfl,rfl,by decide⟩
  have followed := visitsLast (all firstForkAnswered) ran _ sessions ⟨rfl,rfl⟩
  have lost := heldOfActsOn followed
  rw [held] at lost
  cases lost

end RtcCall.Forks
