import Mathlib.Logic.Function.Basic
import RtcCall.Lib.Runs

/-! Objects that are constructed in places and destroyed there. They are numbered in the
order of their construction; a place holds at most one of them. -/
namespace Lifetimes

variable {Place : Type} [DecidableEq Place]

/- What a place holds was constructed there and never destroyed; what it no longer holds
was destroyed once. -/
structure Ledger (held : Place → Option Nat) (constructed : List Place) (destroyed : List Nat) : Prop where
  live : ∀ p k, held p = some k → constructed[k]? = some p ∧ destroyed.count k = 0
  dead : ∀ k p, constructed[k]? = some p → held p = some k ∨ destroyed.count k = 1
  bound : ∀ k ∈ destroyed, k < constructed.length

namespace Ledger
variable {held : Place → Option Nat} {constructed : List Place} {destroyed : List Nat} {p : Place} {k : Nat}

omit [DecidableEq Place] in
theorem start : Ledger (fun _ : Place => none) [] [] := by
  refine ⟨?_,?_,?_⟩
  · intro p k holds
    cases holds
  · intro k p made
    simp at made
  · intro k gone
    cases gone

omit [DecidableEq Place] in
/- An empty place has seen the end of every object that was constructed in it. -/
theorem emptied (l : Ledger held constructed destroyed) (empty : held p = none) (made : constructed[k]? = some p) :
    destroyed.count k = 1 := by
  rcases l.dead k p made with holds | once
  · rw [empty] at holds
    cases holds
  · exact once

omit [DecidableEq Place] in
/- No object is destroyed twice. -/
theorem counted (l : Ledger held constructed destroyed) (k : Nat) : destroyed.count k = 0 ∨ destroyed.count k = 1 := by
  by_cases inside : k < constructed.length
  · rcases l.dead k _ (List.getElem?_eq_getElem inside) with holds | once
    · exact .inl (l.live _ k holds).2
    · exact .inr once
  · exact .inl (List.count_eq_zero.mpr fun gone => inside (l.bound k gone))

theorem construct (l : Ledger held constructed destroyed) (empty : held p = none) :
    Ledger (Function.update held p (some constructed.length)) (constructed ++ [p]) destroyed := by
  refine ⟨?_,?_,?_⟩
  · intro q k holds
    by_cases same : q = p
    · subst same
      rw [Function.update_self] at holds
      cases Option.some.inj holds
      refine ⟨by simp,List.count_eq_zero.mpr ?_⟩
      exact fun gone => Nat.lt_irrefl _ (l.bound _ gone)
    · rw [Function.update_of_ne same] at holds
      obtain ⟨made,kept⟩ := l.live q k holds
      refine ⟨?_,kept⟩
      rwa [List.getElem?_append_left (List.getElem?_eq_some_iff.mp made).1]
  · intro k q made
    rcases StepRuns.grownCases made with old | ⟨rfl,rfl⟩
    · by_cases same : q = p
      · subst same
        exact .inr (l.emptied empty old)
      · rw [Function.update_of_ne same]
        exact l.dead k q old
    · exact .inl (Function.update_self ..)
  · intro k gone
    rw [List.length_append]
    exact Nat.lt_add_right _ (l.bound k gone)

theorem destroy (l : Ledger held constructed destroyed) (holds : held p = some k) :
    Ledger (Function.update held p none) constructed (destroyed ++ [k]) := by
  obtain ⟨made,kept⟩ := l.live p k holds
  refine ⟨?_,?_,?_⟩
  · intro q j other
    by_cases same : q = p
    · subst same
      rw [Function.update_self] at other
      cases other
    · rw [Function.update_of_ne same] at other
      obtain ⟨there,alive⟩ := l.live q j other
      have apart : j ≠ k := by
        rintro rfl
        exact same (Option.some.inj (there.symm.trans made))
      refine ⟨there,?_⟩
      rw [List.count_append,alive,List.count_singleton,if_neg (by simpa using apart.symm)]
  · intro j q there
    by_cases own : j = k
    · subst own
      refine .inr ?_
      rw [List.count_append,kept,List.count_singleton_self]
    · rw [List.count_append,List.count_singleton,if_neg (by simpa using Ne.symm own)]
      by_cases same : q = p
      · subst same
        rcases l.dead j q there with other | once
        · exact absurd (Option.some.inj (other.symm.trans holds)) own
        · exact .inr once
      · rw [Function.update_of_ne same]
        exact l.dead j q there
  · intro j gone
    rcases List.mem_append.mp gone with old | new
    · exact l.bound j old
    · cases List.mem_singleton.mp new
      exact (List.getElem?_eq_some_iff.mp made).1

end Ledger
end Lifetimes
