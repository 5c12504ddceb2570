import RtcCall.Session.CallContext

/-! Destroying the call object ends the call. End's closure must find what is left of
the call, one session to end or one INVITE to cancel, and nothing may follow it. -/
namespace RtcCall.HangUp
open CallContext StepRuns

def Leaving (w : World) : Prop := w.object = .ending ∨ w.object = .gone

def Leaves (w : World) : Prop :=
  Leaving w ↔ w.log.ended = true ∨ ∃ h, Closure.endCall h ∈ w.queue

theorem executeEnded {c : Closure} {w u : World} (ok : execute c w = some u) :
    u.log.ended = true ↔ w.log.ended = true ∨ ∃ h, c = .endCall h := by
  cases c with
  | invite offer => cases Option.some.inj ok; split <;> simp [doInvite]
  | endCall h => cases Option.some.inj ok; simp
  | operation t h op =>
    rcases operationExact ok with ⟨x,calls,-,-,rfl⟩ | ⟨-,rfl⟩
    · simp [callSession]
    · simp
  | getLocalSdp => cases Option.some.inj ok; simp

/- The steps of the DUM and of the application that run no closure, send no INVITE
and announce no session: what is live or pending after them was so before. -/
structure Calm (w u : World) : Prop where
  sessions : ∀ y ∈ u.sessions, y.live = true → ∃ x ∈ w.sessions, x.live = true ∧ x.id = y.id ∧ x.invite = y.invite
  invites : ∀ j ∈ u.invites, j.final = false → ∃ i ∈ w.invites, i.final = false ∧ i.id = j.id
  kept : ∀ i ∈ w.invites, ∃ j ∈ u.invites, j.id = i.id
  message : u.inviteRequestMsg = w.inviteRequestMsg
  ends : u.log.ends = w.log.ends
  cancels : u.log.cancels = w.log.cancels
  ended : u.log.ended = w.log.ended

theorem leavesDispatch {t : Thread} {c : Closure} {w u : World} (leaves : Leaves w)
    (other : ∀ h, c ≠ .endCall h) (ok : dispatch t c w = some u) : Leaves u := by
  have object := (dispatchUntouched ok).2
  unfold Leaves Leaving at leaves ⊢
  rw [object,leaves]
  cases t with
  | dum =>
    have ran : execute c w = some u := ok
    rw [executeEnded ran,(executeUntouched ran).2.2]
    have never : ¬ ∃ h, c = .endCall h := fun ⟨h,same⟩ => other h same
    simp [never]
  | app =>
    cases Option.some.inj ok
    have never : ∀ h, ¬ Closure.endCall h = c := fun h same => other h same.symm
    simp [post,never]

theorem leavesDestroy {t : Thread} {w u : World} (ok : destroy t w = some u) : Leaves u := by
  cases t with
  | app =>
    cases Option.some.inj ok
    exact ⟨fun _ => .inr ⟨w.h,List.mem_append_right _ (List.mem_singleton_self _)⟩,fun _ => .inl rfl⟩
  | dum =>
    simp only [destroy,bind,Option.bind_eq_some_iff,pure,Option.some.injEq] at ok
    obtain ⟨v,ran,rfl⟩ := ok
    have ran' : execute (.endCall w.h) {w with object := .ending} = some v := ran
    exact ⟨fun _ => .inl ((executeEnded ran').mpr (.inr ⟨w.h,rfl⟩)),fun _ => .inr rfl⟩

theorem stepLeaves {w u : World} {e : Event} (leaves : Leaves w) (ok : step w e = some u) : Leaves u := by
  cases e with
  | invite t offer => exact leavesDispatch leaves (fun h same => by cases same) (inviteRuns ok)
  | issue t op =>
    exact leavesDispatch (w := {w with log := {w.log with issued := w.log.issued ++ [⟨t,w.h,op⟩]}}) leaves
      (fun h same => by cases same) (issueRuns ok)
  | getLocalSdp t => exact leavesDispatch leaves (fun h same => by cases same) (getLocalSdpRuns ok)
  | destroy t => exact leavesDestroy (destroyRuns ok).2
  | execute =>
    obtain ⟨c,rest,queue,ran⟩ := executeRuns ok
    unfold Leaves Leaving at leaves ⊢
    rw [executeEnded ran,(executeUntouched ran).2.1,(executeUntouched ran).2.2,leaves,queue]
    have parts : (∃ h, Closure.endCall h ∈ c :: rest) ↔ (∃ h, c = .endCall h) ∨ ∃ h, Closure.endCall h ∈ rest := by
      simp only [List.mem_cons,exists_or,eq_comm]
    rw [parts,or_assoc]
  | newCall =>
    obtain ⟨ready,rfl⟩ := whenExact ok
    simp only [Bool.and_eq_true,beq_iff_eq] at ready
    unfold Leaves Leaving at leaves ⊢
    simpa [ready.2] using leaves
  | createAppDialogSet offer =>
    obtain ⟨ready,rfl⟩ := whenExact ok
    simp only [Bool.and_eq_true,beq_iff_eq] at ready
    unfold Leaves Leaving at leaves ⊢
    simpa [ready.2] using leaves
  | release =>
    obtain ⟨ready,rfl⟩ := whenExact ok
    exact ⟨fun _ => leaves.mp (.inl (by simpa using ready)),fun _ => .inr rfl⟩
  | terminated s i final =>
    obtain ⟨_,rfl⟩ := whenExact ok
    cases final <;> exact leaves
  | _ =>
    obtain ⟨_,rfl⟩ := whenExact ok
    exact leaves

end RtcCall.HangUp
