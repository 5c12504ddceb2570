import RtcCall.Render.SdlRenderer

/-! The textures of a window: which sink holds which, and what has become of the others
when the renderer goes. -/
namespace RtcCall.Render
open StepRuns Lifetimes

section
variable {F : Type} {scaled : F → Int → Int} {w t : World F} {i : Nat} {s u : Sink F} {e : Event F}

/- A sink that is gone holds no texture and draws nothing; the renderer is gone once its
handle and every sink are. -/
structure Custody (w : World F) : Prop where
  ledger : Ledger (textureOf w) w.makers w.destroyed
  count : w.makers.length = w.textures.length
  dead : ∀ i, aliveOf w i = false → textureOf w i = none ∧ stageOf w i = .idle
  closing : w.closed = true ↔ w.held = false ∧ ∀ i, aliveOf w i = false

theorem startCustody : Custody (World.start : World F) where
  ledger := Ledger.start
  count := rfl
  dead _ _ := ⟨rfl,rfl⟩
  closing := by simp [World.start]

/- A sink is left alive, or with neither a texture nor work. -/
theorem Custody.ends (c : Custody w) (found : w.sinks[i]? = some s) (set : t.sinks = w.sinks.set i u)
    (own : u.alive = true ∨ u.texture = none ∧ u.stage = .idle) (j : Nat) (gone : aliveOf t j = false) :
    textureOf t j = none ∧ stageOf t j = .idle := by
  rw [alivePut found set] at gone
  rw [texturePut found set,stagePut found set]
  by_cases same : j = i
  · subst same
    simp only [Function.update_self] at gone ⊢
    rcases own with alive | rest
    · rw [gone] at alive
      cases alive
    · exact rest
  · simp only [Function.update_of_ne same] at gone ⊢
    exact c.dead j gone

/- Only what is alive is at work. -/
theorem Custody.atWork (c : Custody w) (found : w.sinks[i]? = some s) (busy : s.stage ≠ .idle) : s.alive = true := by
  cases here : s.alive with
  | true => rfl
  | false =>
    have rest := (c.dead i ((aliveFound found).trans here)).2
    rw [stageFound found] at rest
    exact absurd rest busy

/- texture_.reset(), and the destructor of the sink. -/
theorem Custody.drop (c : Custody w) (found : w.sinks[i]? = some s) :
    Ledger (Function.update (textureOf w) i none) w.makers (w.destroyed ++ s.texture.toList) := by
  have held := textureFound found
  cases has : s.texture with
  | none =>
    rw [has] at held
    rw [Option.toList_none,List.append_nil,←held,Function.update_eq_self]
    exact c.ledger
  | some k =>
    rw [has] at held
    exact c.ledger.destroy held

/- A step of a sink that neither takes nor gives a texture. -/
theorem Custody.kept (c : Custody w) (found : w.sinks[i]? = some s) (set : t.sinks = w.sinks.set i u)
    (makers : t.makers = w.makers) (destroyed : t.destroyed = w.destroyed) (same : u.texture = s.texture) :
    Ledger (textureOf t) t.makers t.destroyed := by
  rw [texturePut found set,same,←textureFound found,Function.update_eq_self,makers,destroyed]
  exact c.ledger

/- A step of a sink that is alive before and after it. -/
theorem Custody.stays (c : Custody w) (found : w.sinks[i]? = some s) (set : t.sinks = w.sinks.set i u)
    (held : t.held = w.held) (closed : t.closed = w.closed) (before : s.alive = true) (after : u.alive = true) :
    t.closed = true ↔ t.held = false ∧ ∀ j, aliveOf t j = false := by
  have same : u.alive = aliveOf w i := after.trans (before.symm.trans (aliveFound found).symm)
  rw [alivePut found set,same,Function.update_eq_self,held,closed]
  exact c.closing

theorem allDead (w : World F) : (w.sinks.all (!·.alive)) = true ↔ ∀ i, aliveOf w i = false := by
  rw [List.all_eq_true]
  constructor
  · intro each i
    cases found : w.sinks[i]? with
    | none => simp [aliveOf,found]
    | some s =>
      rw [aliveFound found]
      simpa using each s (List.mem_of_getElem? found)
  · intro each s member
    obtain ⟨i,found⟩ := List.mem_iff_getElem?.mp member
    have gone := each i
    rw [aliveFound found] at gone
    simp [gone]

/- What has been closed stays so, and the test of `release` is made when a holder goes. -/
theorem releaseClosing (before : w.closed = true → w.held = false ∧ ∀ i, aliveOf w i = false) :
    (release w).closed = true ↔ w.held = false ∧ ∀ i, aliveOf w i = false := by
  simp only [release,Bool.or_eq_true,Bool.and_eq_true,Bool.not_eq_true',allDead]
  exact ⟨fun either => either.elim before id,.inr⟩

theorem moveCustody (c : Custody w) (moves : Moves scaled w e t) : Custody t := by
  cases moves with
  | createSink p held =>
    refine ⟨?_,c.count,?_,?_⟩
    · rw [textureMore (p := p) rfl]
      exact c.ledger
    · intro j gone
      rw [aliveMore (p := p) rfl] at gone
      rw [textureMore (p := p) rfl,stageMore (p := p) rfl]
      by_cases last : j = w.sinks.length
      · subst last
        simp only [Function.update_self] at gone
        cases gone
      · rw [Function.update_of_ne last] at gone
        exact c.dead j gone
    · constructor
      · intro closed
        exact absurd (c.closing.mp closed).1 (by simp [held])
      · intro both
        exact absurd both.1 (by simp [held])
  | @pass i s e g m d found passes =>
    have alive : s.alive = true := by
      cases passes with
      | started f alive stands => exact alive
      | _ => exact c.atWork found (by simp [*])
    refine ⟨?_,c.count,?_,?_⟩
    · exact c.kept found rfl rfl rfl rfl
    · exact c.ends found rfl (.inl alive)
    · exact c.stays found rfl rfl rfl alive alive
  | @reset i s f found stands =>
    have alive := c.atWork found (by simp [stands])
    refine ⟨?_,c.count,?_,?_⟩
    · rw [texturePut found rfl]
      exact c.drop found
    · exact c.ends found rfl (.inl alive)
    · exact c.stays found rfl rfl rfl alive alive
  | @made i s f ok found stands empty =>
    have alive := c.atWork found (by simp [stands])
    refine ⟨?_,?_,?_,?_⟩
    · rw [texturePut found rfl]
      have l := c.ledger.construct ((textureFound found).trans empty)
      rwa [c.count] at l
    · simp [c.count]
    · exact c.ends found rfl (.inl alive)
    · exact c.stays found rfl rfl rfl alive alive
  | @filled i s f found stands =>
    have alive := c.atWork found (by simp [stands])
    refine ⟨?_,?_,?_,?_⟩
    · exact c.kept found rfl rfl rfl rfl
    · simp only [updateYUVTexture]
      split
      · rw [List.length_modify]
        exact c.count
      · exact c.count
    · exact c.ends found rfl (.inl alive)
    · exact c.stays found rfl rfl rfl alive alive
  | @destroySink i s found alive stands =>
    refine ⟨?_,c.count,?_,?_⟩
    · rw [texturePut found rfl]
      exact c.drop found
    · exact c.ends found rfl (.inr ⟨rfl,stands⟩)
    · refine releaseClosing ?_
      intro closed
      have both := c.closing.mp closed
      refine ⟨both.1,?_⟩
      intro j
      rw [alivePut found rfl]
      by_cases same : j = i
      · rw [same,Function.update_self]
      · rw [Function.update_of_ne same]
        exact both.2 j
  | dropRenderer held =>
    refine ⟨c.ledger,c.count,c.dead,?_⟩
    refine releaseClosing ?_
    intro closed
    exact ⟨rfl,(c.closing.mp closed).2⟩

theorem stepCustody : Keeps (step scaled) (fun _ _ => True) (Custody (F := F)) :=
  fun _ _ _ c _ ok => moveCustody c (stepMoves ok)

/- A sink at work keeps the renderer. -/
theorem closedStops (c : Custody w) (closed : w.closed = true) (e : Event F) : step scaled w e = none := by
  have both := c.closing.mp closed
  have gone : ∀ {i : Nat} {s : Sink F}, w.sinks[i]? = some s → s.alive = false :=
    fun found => (aliveFound found).symm.trans (both.2 _)
  cases next : step scaled w e with
  | none => rfl
  | some t =>
    exfalso
    cases stepMoves next with
    | createSink p held | dropRenderer held => simp [both.1] at held
    | pass found passes =>
      cases passes with
      | started f alive stands => simp [gone found] at alive
      | _ => exact absurd (c.atWork found (by simp [*])) (by simp [gone found])
    | reset found stands | made found stands empty | filled found stands =>
      exact absurd (c.atWork found (by simp [stands])) (by simp [gone found])
    | destroySink found alive stands => simp [gone found] at alive

/- No texture is destroyed twice; one that is not destroyed is in the hands of one sink,
which is alive; and the renderer goes after all of them, when nothing can happen any more. -/
structure Released (scaled : F → Int → Int) (w : World F) : Prop where
  once : ∀ k, w.destroyed.count k ≤ 1
  whose : ∀ k < w.textures.length, w.destroyed.count k = 0 ↔ ∃ i, aliveOf w i = true ∧ textureOf w i = some k
  single : ∀ i j k, textureOf w i = some k → textureOf w j = some k → i = j
  last : w.closed = true ↔ w.held = false ∧ ∀ i, aliveOf w i = false
  rest : w.closed = true → (∀ k < w.textures.length, w.destroyed.count k = 1) ∧ ∀ e, step scaled w e = none

theorem Custody.whose (c : Custody w) {k : Nat} (made : k < w.textures.length) :
    w.destroyed.count k = 0 ↔ ∃ i, aliveOf w i = true ∧ textureOf w i = some k := by
  have inside : k < w.makers.length := by rwa [c.count]
  constructor
  · intro kept
    rcases c.ledger.dead k _ (List.getElem?_eq_getElem inside) with holds | once
    · refine ⟨_,?_,holds⟩
      cases alive : aliveOf w w.makers[k] with
      | true => rfl
      | false =>
        have empty := (c.dead _ alive).1
        rw [empty] at holds
        cases holds
    · rw [kept] at once
      cases once
  · intro ⟨i,_,holds⟩
    exact (c.ledger.live i k holds).2

theorem Custody.released (c : Custody w) : Released scaled w where
  once k := by
    rcases c.ledger.counted k with never | once
    · omega
    · omega
  whose k made := c.whose made
  single i j k left right := by
    have one := (c.ledger.live i k left).1
    have two := (c.ledger.live j k right).1
    exact Option.some.inj (one.symm.trans two)
  last := c.closing
  rest closed := by
    refine ⟨?_,closedStops c closed⟩
    intro k made
    rcases c.ledger.counted k with never | once
    · obtain ⟨i,alive,_⟩ := (c.whose made).mp never
      rw [(c.closing.mp closed).2 i] at alive
      cases alive
    · exact once

theorem texturesReleased (scaled : F → Int → Int) (es : List (Event F)) :
    Visits (step scaled) (Released scaled) World.start es :=
  visitsMono (fun _ => Custody.released)
    (visitsOfKeeps stepCustody startCustody (meetsOfEvents (fun _ _ _ => trivial) _))

end

end RtcCall.Render
