import Mathlib.Logic.Basic

/-! Runs of a partial step function. A list of events is followed as far as its
steps are enabled; conditions are asked of the state before a step, properties
of every state the run visits. -/
namespace StepRuns

variable {State Event : Type} (step : State → Event → Option State)

def run : State → List Event → Option State
  | s,[] => some s
  | s,e::es => match step s e with
    | some t => run t es
    | none => none

/- Every enabled step of the run is taken in a state that meets the condition. -/
def Meets (C : State → Event → Prop) : State → List Event → Prop
  | _,[] => True
  | s,e::es => match step s e with
    | some t => C s e ∧ Meets C t es
    | none => True

/- The property holds in every state of the run, the first and the last included. -/
def Visits (P : State → Prop) : State → List Event → Prop
  | s,[] => P s
  | s,e::es => P s ∧ match step s e with
    | some t => Visits P t es
    | none => True

instance decidableMeets (C : State → Event → Prop) [∀ s e, Decidable (C s e)] :
    (s : State) → (es : List Event) → Decidable (Meets step C s es)
  | _,[] => .isTrue trivial
  | s,e::es => match next : step s e with
    | some t =>
      have := decidableMeets C t es
      decidable_of_iff (C s e ∧ Meets step C t es) (by simp only [Meets,next])
    | none => .isTrue (by simp only [Meets,next])

instance decidableVisits (P : State → Prop) [∀ s, Decidable (P s)] :
    (s : State) → (es : List Event) → Decidable (Visits step P s es)
  | s,[] => inferInstanceAs (Decidable (P s))
  | s,e::es => match next : step s e with
    | some t =>
      have := decidableVisits P t es
      decidable_of_iff (P s ∧ Visits step P t es) (by simp only [Visits,next])
    | none => decidable_of_iff (P s) (by simp only [Visits,next,and_true])

variable {step}

theorem visitsFirst {P : State → Prop} {s es} (h : Visits step P s es) : P s := by
  cases es with
  | nil => exact h
  | cons e es => exact h.1

theorem visitsLast {P : State → Prop} {s es t} (h : Visits step P s es)
    (ok : run step s es = some t) : P t := by
  induction es generalizing s with
  | nil => cases Option.some.inj ok; exact h
  | cons e es ih =>
    simp only [run] at ok
    cases next : step s e with
    | none => simp [next] at ok
    | some u =>
      simp only [next] at ok
      have rest := h.2
      simp only [next] at rest
      exact ih rest ok

theorem meetsBoth {C D : State → Event → Prop} {s es} (left : Meets step C s es)
    (right : Meets step D s es) : Meets step (fun s e => C s e ∧ D s e) s es := by
  induction es generalizing s with
  | nil => trivial
  | cons e es ih =>
    simp only [Meets] at left right ⊢
    split <;> rename_i next
    · simp only [next] at left right; exact ⟨⟨left.1,right.1⟩,ih left.2 right.2⟩
    · trivial

theorem meetsOfEvents {C : State → Event → Prop} {es : List Event}
    (each : ∀ e ∈ es, ∀ s, C s e) (s : State) : Meets step C s es := by
  induction es generalizing s with
  | nil => trivial
  | cons e es ih =>
    simp only [Meets]
    split
    · exact ⟨each e List.mem_cons_self s,ih (fun a ha => each a (List.mem_cons_of_mem e ha)) _⟩
    · trivial

/- The step lemma of an invariant under a condition on the steps. -/
def Keeps (step : State → Event → Option State) (C : State → Event → Prop) (Inv : State → Prop) : Prop :=
  ∀ s e t, Inv s → C s e → step s e = some t → Inv t

theorem visitsOfKeeps {C : State → Event → Prop} {Inv : State → Prop} (keep : Keeps step C Inv)
    {s es} (start : Inv s) (meets : Meets step C s es) : Visits step Inv s es := by
  induction es generalizing s with
  | nil => exact start
  | cons e es ih =>
    refine ⟨start,?_⟩
    simp only [Meets] at meets
    split <;> rename_i next
    · simp only [next] at meets
      exact ih (keep s e _ start meets.1 next) meets.2
    · trivial

theorem visitsMono {P Q : State → Prop} (imp : ∀ s, P s → Q s) {s es}
    (h : Visits step P s es) : Visits step Q s es := by
  induction es generalizing s with
  | nil => exact imp s h
  | cons e es ih =>
    refine ⟨imp s h.1,?_⟩
    have rest := h.2
    split <;> rename_i next
    · simp only [next] at rest; exact ih rest
    · trivial

theorem meetsOfVisits {P : State → Prop} {s es} (h : Visits step P s es) : Meets step (fun s _ => P s) s es := by
  induction es generalizing s with
  | nil => trivial
  | cons e es ih =>
    have rest := h.2
    simp only [Meets]
    split <;> rename_i next
    · simp only [next] at rest
      exact ⟨h.1,ih rest⟩
    · trivial

theorem meetsNext {P : State → Prop} {s es} (h : Visits step P s es) :
    Meets step (fun s e => ∀ t, step s e = some t → P t) s es := by
  induction es generalizing s with
  | nil => trivial
  | cons e es ih =>
    have rest := h.2
    simp only [Meets]
    split <;> rename_i next
    · simp only [next] at rest
      refine ⟨?_,ih rest⟩
      intro t same
      cases Option.some.inj (next.symm.trans same)
      exact visitsFirst rest
    · trivial

/- A condition is exact for a property when the invariant gives the property,
and a step that breaks the condition ends in a state without the property. -/
theorem visitsIffMeets {C A : State → Event → Prop} {Inv P : State → Prop}
    (keep : Keeps step (fun s e => A s e ∧ C s e) Inv) (gives : ∀ s, Inv s → P s)
    (breaks : ∀ s e t, Inv s → A s e → ¬ C s e → step s e = some t → ¬ P t)
    {s es} (start : Inv s) (allowed : Meets step A s es) :
    Visits step P s es ↔ Meets step C s es := by
  constructor
  · intro visits
    induction es generalizing s with
    | nil => trivial
    | cons e es ih =>
      have rest := visits.2
      simp only [Meets] at allowed ⊢
      split <;> rename_i next
      · simp only [next] at rest allowed
        by_cases good : C s e
        · exact ⟨good,ih (keep s e _ start ⟨allowed.1,good⟩ next) allowed.2 rest⟩
        · exact absurd (visitsFirst rest) (breaks s e _ start allowed.1 good next)
      · trivial
  · intro meets
    exact visitsMono gives (visitsOfKeeps keep start (meetsBoth allowed meets))

/- Two conditions that agree on every state of the invariant agree on runs. -/
theorem meetsCongr {C D : State → Event → Prop} {Inv : State → Prop}
    (keep : Keeps step (fun _ _ => True) Inv) (same : ∀ s e, Inv s → (C s e ↔ D s e))
    {s es} (start : Inv s) : Meets step C s es ↔ Meets step D s es := by
  induction es generalizing s with
  | nil => exact Iff.rfl
  | cons e es ih =>
    simp only [Meets]
    split <;> rename_i next
    · rw [same s e start,ih (keep s e _ start trivial next)]
    · exact Iff.rfl

/- The step rule of an invariant that speaks of the events taken so far. -/
theorem runHistory {Inv : List Event → State → Prop}
    (each : ∀ past s e t, Inv past s → step s e = some t → Inv (past ++ [e]) t) {past s es t}
    (now : Inv past s) (ok : run step s es = some t) : Inv (past ++ es) t := by
  induction es generalizing past s with
  | nil =>
    cases Option.some.inj ok
    rwa [List.append_nil]
  | cons e es ih =>
    simp only [run] at ok
    cases next : step s e with
    | none => simp [next] at ok
    | some u =>
      simp only [next] at ok
      have rest := ih (each past s e u now next) ok
      rwa [List.append_assoc] at rest

/- What the enabled steps of a run cost, summed. -/
def spent (step : State → Event → Option State) (cost : State → Event → Nat) : State → List Event → Nat
  | _,[] => 0
  | s,e::es => match step s e with
    | some t => cost s e + spent step cost t es
    | none => 0

theorem spentCount (p : Event → Bool) (n : Nat) {s es} {t : State} (ok : run step s es = some t) :
    spent step (fun _ e => if p e then n else 0) s es = n * es.countP p := by
  induction es generalizing s with
  | nil => rfl
  | cons e es ih =>
    simp only [run] at ok
    cases next : step s e with
    | none => simp [next] at ok
    | some u =>
      simp only [next] at ok
      simp only [spent,next,ih ok,List.countP_cons]
      split
      · rw [Nat.mul_add,Nat.mul_one,Nat.add_comm]
      · rw [Nat.zero_add,Nat.add_zero]

theorem spentEach {s es} {t : State} (ok : run step s es = some t) : spent step (fun _ _ => 1) s es = es.length := by
  have count := spentCount (fun _ => true) 1 ok
  simpa using count

theorem spentZero (s : State) (es : List Event) : spent step (fun _ _ => 0) s es = 0 := by
  induction es generalizing s with
  | nil => rfl
  | cons e es ih =>
    simp only [spent]
    split
    · rw [ih,Nat.add_zero]
    · rfl

/- The rule of a measure: what a run gains is no more than the measure falls and its
steps pay for. -/
theorem runBounded {C : State → Event → Prop} {μ : State → Nat} {gain cost : State → Event → Nat}
    (drops : ∀ s e t, C s e → step s e = some t → gain s e + μ t ≤ μ s + cost s e) {s es t}
    (meets : Meets step C s es) (ok : run step s es = some t) :
    spent step gain s es + μ t ≤ μ s + spent step cost s es := by
  induction es generalizing s with
  | nil =>
    cases Option.some.inj ok
    exact Nat.le_of_eq (Nat.add_comm ..)
  | cons e es ih =>
    simp only [run] at ok
    cases next : step s e with
    | none => simp [next] at ok
    | some u =>
      simp only [next] at ok
      simp only [Meets,next] at meets
      have first := drops s e u meets.1 next
      have rest := ih meets.2 ok
      simp only [spent,next]
      omega

/- A run beside a run of an abstract machine: `F` relates their states, and each step
leaves the abstract state or takes one of its moves. -/
def Refines {Abstract : Type} (step : State → Event → Option State) (F : State → Abstract → Prop)
    (next : Abstract → Abstract → Prop) : State → Abstract → List Event → Prop
  | s,n,[] => F s n
  | s,n,e::es => F s n ∧ match step s e with
    | some t => ∃ m, (m = n ∨ next n m) ∧ Refines step F next t m es
    | none => True

section
variable {Abstract : Type} {F : State → Abstract → Prop} {next : Abstract → Abstract → Prop}

theorem refinesOfSteps (each : ∀ s e t n, F s n → step s e = some t → ∃ m, (m = n ∨ next n m) ∧ F t m) {s n es}
    (start : F s n) : Refines step F next s n es := by
  induction es generalizing s n with
  | nil => exact start
  | cons e es ih =>
    refine ⟨start,?_⟩
    split <;> rename_i taken
    · obtain ⟨m,move,follows⟩ := each s e _ n start taken
      exact ⟨m,move,ih follows⟩
    · trivial

theorem visitsOfRefines {s n es} (h : Refines step F next s n es) : Visits step (fun s => ∃ n, F s n) s es := by
  induction es generalizing s n with
  | nil => exact ⟨n,h⟩
  | cons e es ih =>
    refine ⟨⟨n,h.1⟩,?_⟩
    have rest := h.2
    split <;> rename_i taken
    · simp only [taken] at rest
      obtain ⟨m,_,later⟩ := rest
      exact ih later
    · trivial

end

/- Two stretches of a run make one. -/
theorem runAppend {s t u : State} {left right : List Event} (first : run step s left = some t)
    (second : run step t right = some u) : run step s (left ++ right) = some u := by
  induction left generalizing s with
  | nil => cases Option.some.inj first; exact second
  | cons e es ih =>
    simp only [run] at first
    cases next : step s e with
    | none => simp [next] at first
    | some v =>
      simp only [next] at first
      simp only [List.cons_append,run,next]
      exact ih first

theorem meetsAppend {C : State → Event → Prop} {s t : State} {left right : List Event}
    (first : run step s left = some t) :
    Meets step C s (left ++ right) ↔ Meets step C s left ∧ Meets step C t right := by
  induction left generalizing s with
  | nil =>
    cases Option.some.inj first
    exact ⟨fun meets => ⟨trivial,meets⟩,fun meets => meets.2⟩
  | cons e es ih =>
    simp only [run] at first
    cases next : step s e with
    | none => simp [next] at first
    | some v =>
      simp only [next] at first
      simp only [List.cons_append,Meets,next,ih first,and_assoc]

/- What no step brings back holds all the way to a state that has it. -/
theorem visitsBack {C : State → Event → Prop} {P : State → Prop}
    (back : ∀ s e t, C s e → step s e = some t → P t → P s) {s es t} (meets : Meets step C s es)
    (ok : run step s es = some t) (last : P t) : Visits step P s es := by
  induction es generalizing s with
  | nil => cases Option.some.inj ok; exact last
  | cons e es ih =>
    simp only [run] at ok
    cases next : step s e with
    | none => simp [next] at ok
    | some u =>
      simp only [next] at ok
      simp only [Meets,next] at meets
      have rest := ih meets.2 ok
      simp only [Visits,next]
      exact ⟨back s e u meets.1 next (visitsFirst rest),rest⟩

/- The rule of waiting in turn: what stays late while the steps that count bring it nearer
is not late for more of them than it was away. -/
theorem turnComes {C : State → Event → Prop} {P : State → Prop} {μ : State → Nat} {p : Event → Bool}
    (back : ∀ s e t, C s e → step s e = some t → P t → P s)
    (nearer : ∀ s e t, C s e → P s → P t → step s e = some t → (if p e then 1 else 0) + μ t ≤ μ s) {s es t}
    (meets : Meets step C s es) (ok : run step s es = some t) (enough : μ s < es.countP p) : ¬ P t := by
  intro late
  -- Late at the end, it has been late all along.
  have waits := visitsBack back meets ok late
  have falls : spent step (fun _ e => if p e then 1 else 0) s es + μ t ≤ μ s + spent step (fun _ _ => 0) s es :=
    runBounded (fun s e t now next => nearer s e t now.1 now.2.1 (now.2.2 t next) next)
      (meetsBoth meets (meetsBoth (meetsOfVisits waits) (meetsNext waits))) ok
  rw [spentCount p 1 ok,spentZero] at falls
  omega

/- A list that grows at its end: what it holds was there, or is the new entry. -/
theorem grownCases {Entry : Type} {log : List Entry} {new found : Entry} {k : Nat}
    (there : (log ++ [new])[k]? = some found) : log[k]? = some found ∨ (k = log.length ∧ found = new) := by
  by_cases old : k < log.length
  · rw [List.getElem?_append_left old] at there
    exact .inl there
  · have last : k = log.length := by
      have inside := (List.getElem?_eq_some_iff.mp there).1
      simp at inside
      omega
    subst last
    rw [List.getElem?_concat_length] at there
    exact .inr ⟨rfl,(Option.some.inj there).symm⟩

/- A log holds only good entries when every step of the run adds only good ones. -/
theorem meetsIffLogged {Entry : Type} (good : Entry → Prop) {C : State → Event → Prop}
    {log : State → List Entry} {adds : State → Event → List Entry}
    (grows : ∀ s e t, step s e = some t → log t = log s ++ adds s e)
    (same : ∀ s e, C s e ↔ ∀ a ∈ adds s e, good a) {s es t} (ok : run step s es = some t) :
    (∀ a ∈ log t, good a) ↔ (∀ a ∈ log s, good a) ∧ Meets step C s es := by
  induction es generalizing s with
  | nil => cases Option.some.inj ok; simp [Meets]
  | cons e es ih =>
    simp only [run] at ok
    cases next : step s e with
    | none => simp [next] at ok
    | some u =>
      simp only [next] at ok
      simp only [ih ok,Meets,next,grows s e u next,List.mem_append,same s e]
      constructor
      · intro ⟨before,rest⟩
        exact ⟨fun a old => before a (.inl old),fun a new => before a (.inr new),rest⟩
      · intro ⟨old,new,rest⟩
        exact ⟨fun a member => member.elim (old a) (new a),rest⟩

end StepRuns
