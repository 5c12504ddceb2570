import Mathlib.Data.List.Basic

/-! Objects with strong references to one another, as a reference count keeps them: an
object lives while something holds it, and its destructor releases what it held. -/
namespace Ownership

variable {Root Node : Type}

/- A reference is held from outside, by a root, or by another object. -/
inductive Holder (Root Node : Type) where
  | root (r : Root)
  | object (n : Node)
  deriving DecidableEq, Repr

structure Ref (Root Node : Type) where
  holder : Holder Root Node
  target : Node
  deriving DecidableEq, Repr

structure Heap (Root Node : Type) where
  live : List Node
  refs : List (Ref Root Node)
  deriving DecidableEq, Repr

variable [DecidableEq Root] [DecidableEq Node]

namespace Heap

def owned (h : Heap Root Node) (n : Node) : Bool := h.refs.any (·.target == n)

def destroy (n : Node) (h : Heap Root Node) : Heap Root Node :=
  ⟨h.live.filter (· != n),h.refs.filter (·.holder != .object n)⟩

/- Objects that nothing holds are destroyed one after another. -/
def settle : Nat → Heap Root Node → Heap Root Node
  | 0,h => h
  | k+1,h => match h.live.find? (fun n => !h.owned n) with
    | some n => settle k (h.destroy n)
    | none => h

/- New objects, new references, and then references released. -/
def change (new : List Node) (gained lost : List (Ref Root Node)) (h : Heap Root Node) : Heap Root Node :=
  let h : Heap Root Node := ⟨new ++ h.live,gained ++ h.refs.filter (· ∉ lost)⟩
  h.settle h.live.length

/- No reference dangles, and none is held by an object that is gone. -/
structure Closed (h : Heap Root Node) : Prop where
  targets : ∀ r ∈ h.refs, r.target ∈ h.live
  holders : ∀ r ∈ h.refs, ∀ n, r.holder = .object n → n ∈ h.live

def Owned (h : Heap Root Node) : Prop := ∀ n ∈ h.live, ∃ r ∈ h.refs, r.target = n

/- Each of these objects is live and held by a root or by one of them. -/
def Sustains (h : Heap Root Node) (S : Node → Prop) : Prop :=
  ∀ n, S n → n ∈ h.live ∧ ∃ r ∈ h.refs, r.target = n ∧ ∀ m, r.holder = .object m → S m

end Heap

open Heap

section
variable {h : Heap Root Node} {S : Node → Prop}

omit [DecidableEq Root] in
theorem ownedIff {n : Node} : h.owned n = true ↔ ∃ r ∈ h.refs, r.target = n := by
  simp [owned]

omit [DecidableEq Root] in
theorem foundUnowned {n : Node} (found : h.live.find? (fun n => !h.owned n) = some n) :
    n ∈ h.live ∧ ∀ r ∈ h.refs, r.target ≠ n := by
  refine ⟨List.mem_of_find?_eq_some found,fun r there same => ?_⟩
  have free := List.find?_some found
  rw [ownedIff.mpr ⟨r,there,same⟩] at free
  cases free

theorem destroyClosed {n : Node} (closed : Closed h) (free : ∀ r ∈ h.refs, r.target ≠ n) :
    Closed (h.destroy n) := by
  refine ⟨fun r there => ?_,fun r there m held => ?_⟩
  · have old := (List.mem_filter.mp there).1
    exact List.mem_filter.mpr ⟨closed.targets r old,by simpa using free r old⟩
  · obtain ⟨old,other⟩ := List.mem_filter.mp there
    refine List.mem_filter.mpr ⟨closed.holders r old m held,?_⟩
    rw [held] at other
    simpa using other

/- What sustains itself outlives an object that nothing holds. -/
theorem destroySustains {n : Node} (sustains : Sustains h S) (free : ∀ r ∈ h.refs, r.target ≠ n) :
    Sustains (h.destroy n) S := by
  have apart : ∀ m, S m → m ≠ n := by
    rintro m inside rfl
    obtain ⟨_,r,there,same,_⟩ := sustains m inside
    exact free r there same
  intro m inside
  obtain ⟨live,r,there,same,held⟩ := sustains m inside
  refine ⟨List.mem_filter.mpr ⟨live,by simpa using apart m inside⟩,r,List.mem_filter.mpr ⟨there,?_⟩,same,held⟩
  cases holder : r.holder with
  | root x => simp
  | object k => simpa using apart k (held k holder)

theorem settleClosed (k : Nat) (closed : Closed h) : Closed (h.settle k) := by
  induction k generalizing h with
  | zero => exact closed
  | succ k ih =>
    simp only [settle]
    split
    · rename_i n found
      exact ih (destroyClosed closed (foundUnowned found).2)
    · exact closed

theorem settleSustains (k : Nat) (sustains : Sustains h S) : Sustains (h.settle k) S := by
  induction k generalizing h with
  | zero => exact sustains
  | succ k ih =>
    simp only [settle]
    split
    · rename_i n found
      exact ih (destroySustains sustains (foundUnowned found).2)
    · exact sustains

theorem settleLess (k : Nat) : (h.settle k).live ⊆ h.live ∧ (h.settle k).refs ⊆ h.refs := by
  induction k generalizing h with
  | zero => exact ⟨List.Subset.refl _,List.Subset.refl _⟩
  | succ k ih =>
    simp only [settle]
    split
    · rename_i n found
      obtain ⟨live,refs⟩ := ih (h := h.destroy n)
      exact ⟨fun m there => (List.mem_filter.mp (live there)).1,fun r there => (List.mem_filter.mp (refs there)).1⟩
    · exact ⟨List.Subset.refl _,List.Subset.refl _⟩

/- Only what its holder's destructor releases is gone. -/
theorem settleKeeps (k : Nat) {r : Ref Root Node} (there : r ∈ h.refs)
    (kept : ∀ n, r.holder = .object n → n ∈ (h.settle k).live) : r ∈ (h.settle k).refs := by
  induction k generalizing h with
  | zero => exact there
  | succ k ih =>
    simp only [settle] at kept ⊢
    split
    · rename_i n found
      simp only [found] at kept
      refine ih (List.mem_filter.mpr ⟨there,?_⟩) kept
      cases holder : r.holder with
      | root x => simp
      | object m =>
        have survivor := (settleLess k).1 (kept m holder)
        have other := (List.mem_filter.mp survivor).2
        simpa using other
    · exact there

/- With as many rounds as there are objects, nothing that lives is unheld. -/
theorem settleOwned (k : Nat) (enough : h.live.length ≤ k) : Owned (h.settle k) := by
  induction k generalizing h with
  | zero =>
    intro n member
    rw [settle,List.eq_nil_of_length_eq_zero (Nat.le_zero.mp enough)] at member
    cases member
  | succ k ih =>
    simp only [settle]
    split
    · rename_i n found
      refine ih ?_
      have shorter : (h.live.filter (· != n)).length < h.live.length :=
        List.length_filter_lt_length_iff_exists.mpr ⟨n,(foundUnowned found).1,by simp⟩
      change (h.live.filter (· != n)).length ≤ k
      omega
    · rename_i every
      intro n member
      refine ownedIff.mp ?_
      simpa using List.find?_eq_none.mp every n member

end

section
variable {h : Heap Root Node} {new : List Node} {gained lost : List (Ref Root Node)}

/- A change whose new references are to live objects and from live objects. -/
structure Fits (h : Heap Root Node) (new : List Node) (gained : List (Ref Root Node)) : Prop where
  targets : ∀ r ∈ gained, r.target ∈ new ++ h.live
  holders : ∀ r ∈ gained, ∀ n, r.holder = .object n → n ∈ new ++ h.live

theorem changeClosed (closed : Closed h) (fits : Fits h new gained) : Closed (h.change new gained lost) := by
  refine settleClosed _ ⟨fun r there => ?_,fun r there n held => ?_⟩
  · rcases List.mem_append.mp there with fresh | old
    · exact fits.targets r fresh
    · exact List.mem_append_right _ (closed.targets r (List.mem_filter.mp old).1)
  · rcases List.mem_append.mp there with fresh | old
    · exact fits.holders r fresh n held
    · exact List.mem_append_right _ (closed.holders r (List.mem_filter.mp old).1 n held)

theorem changeOwned : Owned (h.change new gained lost) := settleOwned _ (Nat.le_refl _)

theorem changeLive {n : Node} (live : n ∈ (h.change new gained lost).live) : n ∈ new ∨ n ∈ h.live :=
  List.mem_append.mp ((settleLess _).1 live)

theorem changeRefs {r : Ref Root Node} (there : r ∈ (h.change new gained lost).refs) :
    r ∈ gained ∨ (r ∈ h.refs ∧ r ∉ lost) := by
  rcases List.mem_append.mp ((settleLess _).2 there) with fresh | old
  · exact .inl fresh
  · exact .inr ⟨(List.mem_filter.mp old).1,by simpa using (List.mem_filter.mp old).2⟩

/- A reference stays while its holder does and nobody releases it. -/
theorem changeKeeps {r : Ref Root Node} (there : r ∈ gained ∨ (r ∈ h.refs ∧ r ∉ lost))
    (kept : ∀ n, r.holder = .object n → n ∈ (h.change new gained lost).live) :
    r ∈ (h.change new gained lost).refs := by
  refine settleKeeps _ (List.mem_append.mpr (there.imp id ?_)) kept
  exact fun old => List.mem_filter.mpr ⟨old.1,by simpa using old.2⟩

/- Objects that hold one another, new or old, outlive every change that releases none of
the references between them. -/
theorem changeSustains {S : Node → Prop} (held : ∀ n, S n → n ∈ new ++ h.live ∧
    ∃ r, (r ∈ gained ∨ (r ∈ h.refs ∧ r ∉ lost)) ∧ r.target = n ∧ ∀ m, r.holder = .object m → S m) :
    Sustains (h.change new gained lost) S := by
  refine settleSustains _ (fun n inside => ?_)
  obtain ⟨live,r,there,same,inner⟩ := held n inside
  refine ⟨live,r,List.mem_append.mpr (there.imp id (fun old => ?_)),same,inner⟩
  exact List.mem_filter.mpr ⟨old.1,by simpa using old.2⟩

/- What a root still holds is still there. -/
theorem changeRooted {x : Root} {n : Node} (closed : Closed h) (fits : Fits h new gained)
    (there : ⟨.root x,n⟩ ∈ gained ∨ (⟨.root x,n⟩ ∈ h.refs ∧ (⟨.root x,n⟩ : Ref Root Node) ∉ lost)) :
    n ∈ (h.change new gained lost).live :=
  (changeClosed closed fits).targets _ (changeKeeps there (fun _ held => nomatch held))

end

/- A chain of references leads to the object, from a root or from one that is there in
any case. -/
inductive Reached (h : Heap Root Node) (kept : Node → Prop) : Node → Prop where
  | kept {n : Node} (stays : kept n) : Reached h kept n
  | root {n : Node} {x : Root} (there : ⟨.root x,n⟩ ∈ h.refs) : Reached h kept n
  | object {m n : Node} (before : Reached h kept m) (there : ⟨.object m,n⟩ ∈ h.refs) : Reached h kept n

section
variable {h : Heap Root Node} {kept : Node → Prop}

omit [DecidableEq Root] [DecidableEq Node] in
theorem reachedLive (closed : Closed h) (live : ∀ n, kept n → n ∈ h.live) {n : Node} (reached : Reached h kept n) :
    n ∈ h.live := by
  cases reached with
  | kept stays => exact live n stays
  | root there => exact closed.targets _ there
  | object _ there => exact closed.targets _ there

omit [DecidableEq Root] [DecidableEq Node] in
/- Where references go up, but at the kept objects, no cycle keeps itself. -/
theorem liveReached (closed : Closed h) (owned : Owned h) (rank : Node → Nat)
    (up : ∀ m n, ⟨.object m,n⟩ ∈ h.refs → kept m ∨ kept n ∨ rank m < rank n) {n : Node} (live : n ∈ h.live) :
    Reached h kept n := by
  induction height : rank n using Nat.strongRecOn generalizing n with
  | _ k ih =>
    obtain ⟨⟨holder,target⟩,there,rfl⟩ := owned n live
    cases holder with
    | root x => exact .root there
    | object m =>
      rcases up m target there with first | last | below
      · exact .object (.kept first) there
      · exact .kept last
      · exact .object (ih (rank m) (height ▸ below) (closed.holders _ there m rfl) rfl) there

end

end Ownership
