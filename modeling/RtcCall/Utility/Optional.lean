import RtcCall.Lib.Runs
import RtcCall.Lib.Lifetimes

/-! Optional: a flag beside a union whose member value_ is constructed and destroyed by
hand. What the class does to storage is recorded, also where it reads or destroys what is
not there; the run goes on with what the statements say. -/
namespace RtcCall.Utility
open StepRuns Lifetimes

/- The constructors of T. `move` gives the new T and what is left of the old one;
`fromOptional` is the constructor that takes an Optional of T, if T has one. -/
structure Constructors (A V : Type) where
  construct : A → List V → V
  copy : V → V
  move : V → V × V
  fromOptional : Option V → V

/- A T that lives in the storage. It has no content when it was made from no live T. -/
structure Object (V : Type) where
  serial : Nat
  content : Option V
  deriving DecidableEq, Repr

/- `value` is what lives in the union; `gone` says that the destructor has run. -/
structure Optional (V : Type) where
  hasValue : Bool
  value : Option (Object V)
  gone : Bool
  deriving DecidableEq, Repr

/- Storage of the Optional `i` that holds no live T is read or destroyed, or a live T in it
is overwritten. -/
inductive Fault where
  | readDead (i : Nat)
  | destroyedDead (i : Nat)
  | overwritten (i : Nat)
  deriving DecidableEq, Repr

/- The Optionals in the order of their construction. The rest is observed only: the place
of each T that was constructed, the serials of those destroyed, the faults, and for each
copy of an Optional the flags of the original and of the copy. -/
structure World (V : Type) where
  optionals : List (Optional V)
  constructed : List Nat
  destroyed : List Nat
  faults : List Fault
  copies : List (Bool × Bool)
  deriving DecidableEq, Repr

/- The arguments of a T: what comes from elsewhere, and references into the T of Optionals. -/
structure Args (A : Type) where
  own : A
  refs : List Nat
  deriving DecidableEq, Repr

/- `throws` says that the constructor of T throws, after it has read its arguments. A copy
of an Optional that is not const is the variadic constructor's, the better match. -/
inductive Event (A : Type) where
  | default
  | value (args : Args A) (throws : Bool)
  | copy (j : Nat) (isConst throws : Bool)
  | move (j : Nat) (throws : Bool)
  | emplace (i : Nat) (args : Args A) (throws : Bool)
  | assign (i : Nat) (args : Args A) (throws : Bool)
  | destroy (i : Nat)
  deriving DecidableEq, Repr

section
variable {A V : Type}

def World.start : World V := ⟨[],[],[],[],[]⟩

namespace World
variable (w : World V)

def alive (i : Nat) : Bool := w.optionals[i]?.any (!·.gone)

def hasValue (i : Nat) : Bool := w.optionals[i]?.any (·.hasValue)

/- The serial of the T that lives in the storage. -/
def held (i : Nat) : Option Nat := w.optionals[i]?.bind (·.value.map Object.serial)

def content (i : Nat) : Option V := w.optionals[i]?.bind (·.value.bind Object.content)

def edit (i : Nat) (f : Optional V → Optional V) : World V := {w with optionals := w.optionals.modify i f}

def read (refs : List Nat) : World V :=
  {w with faults := w.faults ++ (refs.filter (fun j => (w.held j).isNone)).map .readDead}

def destory (i : Nat) : World V :=
  if w.hasValue i then match w.held i with
    | some k => {w.edit i (fun x => {x with value := none}) with destroyed := w.destroyed ++ [k]}
    | none => {w with faults := w.faults ++ [.destroyedDead i]}
  else w

/- `new (&value_) T(...)`. -/
def placementNew (i : Nat) (content : Option V) : World V :=
  {w.edit i (fun x => {x with value := some ⟨w.constructed.length,content⟩}) with
    constructed := w.constructed ++ [i]
    faults := w.faults ++ if (w.held i).isSome then [.overwritten i] else []}

def setHasValue (b : Bool) (i : Nat) : World V := w.edit i (fun x => {x with hasValue := b})

/- What T's move constructor makes of the T it moves from, which lives on. -/
def moveFrom (left : V → V) (i : Nat) : World V :=
  w.edit i (fun x => {x with value := x.value.map (fun o => {o with content := o.content.map left})})

/- A constructor of Optional that initializes value_, then the flag. -/
def create (hasValue : Bool) (content : Option V) : World V :=
  {w with
    optionals := w.optionals ++ [⟨hasValue,some ⟨w.constructed.length,content⟩,false⟩]
    constructed := w.constructed ++ [w.optionals.length]}

end World

variable (T : Constructors A V)

def made (args : Args A) (w : World V) : Option V := (args.refs.mapM w.content).map (T.construct args.own)

def optionalDefault (w : World V) : World V := {w with optionals := w.optionals ++ [⟨false,none,false⟩]}

def optionalValue (args : Args A) (throws : Bool) (w : World V) : World V :=
  if throws then w.read args.refs else (w.read args.refs).create true (made T args w)

def optionalCopy (j : Nat) (throws : Bool) (w : World V) : World V :=
  if throws then w.read [j]
  else {(w.read [j]).create (w.hasValue j) ((w.content j).map T.copy) with
    copies := w.copies ++ [(w.hasValue j,w.hasValue j)]}

/- The variadic constructor with an Optional for its argument, which T reads as it likes. -/
def optionalCopyNonconst (j : Nat) (throws : Bool) (w : World V) : World V :=
  if throws then w
  else {w.create true (some (T.fromOptional (w.content j))) with copies := w.copies ++ [(w.hasValue j,true)]}

def optionalMove (j : Nat) (throws : Bool) (w : World V) : World V :=
  if throws then w.read [j]
  else (((w.read [j]).create (w.hasValue j) ((w.content j).map (fun v => (T.move v).1))).moveFrom
    (fun v => (T.move v).2) j).setHasValue false j

def emplace (i : Nat) (args : Args A) (throws : Bool) (w : World V) : World V :=
  let w := (w.destory i).read args.refs
  if throws then w else (w.placementNew i (made T args w)).setHasValue true i

def optionalDestroy (i : Nat) (w : World V) : World V := (w.destory i).edit i (fun x => {x with gone := true})

/- An operation is on Optionals that exist, and so are the references. -/
def step (w : World V) : Event A → Option (World V)
  | .default => some (optionalDefault w)
  | .value args throws => if args.refs.all w.alive then some (optionalValue T args throws w) else none
  | .copy j isConst throws =>
    if w.alive j then some (if isConst then optionalCopy T j throws w else optionalCopyNonconst T j throws w) else none
  | .move j throws => if w.alive j then some (optionalMove T j throws w) else none
  | .emplace i args throws =>
    if w.alive i && args.refs.all w.alive then some (emplace T i args throws w) else none
  | .assign i args throws =>
    if w.alive i && args.refs.all w.alive then some (emplace T i args throws w) else none
  | .destroy i => if w.alive i then some (optionalDestroy i w) else none

/- The flag of every Optional says whether a T lives in its storage; no storage was read,
destroyed or overwritten wrongly; every T of an Optional that is gone was destroyed once;
a copy had a value when its original had one. -/
structure LifetimesKept (w : World V) : Prop where
  flag : ∀ i, w.alive i = true → (w.hasValue i = true ↔ (w.held i).isSome = true)
  faults : w.faults = []
  once : ∀ k i, w.constructed[k]? = some i → w.alive i = false → w.destroyed.count k = 1
  copies : ∀ p ∈ w.copies, p.1 = p.2

/- No Optional is moved, unless T's constructor throws; none without a value is copied or
moved; emplace throws only where it has destroyed nothing. What the arguments refer to is
there, and is not the T that emplace destroys first. -/
def Careful (w : World V) : Event A → Prop
  | .default | .destroy _ => True
  | .value args _ => ∀ j ∈ args.refs, w.hasValue j = true
  | .copy j isConst throws => w.hasValue j = true ∨ (isConst = false ∧ throws = true)
  | .move j throws => throws = true ∧ w.hasValue j = true
  | .emplace i args throws | .assign i args throws =>
    (throws = true → w.hasValue i = false) ∧ ∀ j ∈ args.refs, j ≠ i ∧ w.hasValue j = true

namespace World
variable {w : World V} {i j : Nat} {f : Optional V → Optional V}

theorem editAt (w : World V) (i : Nat) (f : Optional V → Optional V) (j : Nat) :
    (w.edit i f).optionals[j]? = if i = j then w.optionals[j]?.map f else w.optionals[j]? := by
  by_cases same : i = j
  · subst same
    simp [edit]
  · simp [edit,same]

/- What is read off each Optional, after an edit of one that keeps it or sets it. -/
theorem viewKept {β : Type} (w : World V) (i : Nat) (f : Optional V → Optional V) (view : Option (Optional V) → β)
    (keeps : ∀ x, view (some (f x)) = view (some x)) :
    (fun j : Nat => view (w.edit i f).optionals[j]?) = fun j => view w.optionals[j]? := by
  funext j
  rw [editAt]
  split
  · cases w.optionals[j]? with
    | none => rfl
    | some x => exact keeps x
  · rfl

/- An Optional that exists. -/
theorem aliveFound (there : w.alive i = true) : ∃ x, w.optionals[i]? = some x ∧ x.gone = false := by
  cases found : w.optionals[i]? with
  | none => simp [alive,found] at there
  | some x => exact ⟨x,rfl,by simpa [alive,found] using there⟩

theorem viewSet {β : Type} (w : World V) (i : Nat) (f : Optional V → Optional V) (view : Option (Optional V) → β)
    (there : w.alive i = true) {b : β} (sets : ∀ x, view (some (f x)) = b) :
    (fun j : Nat => view (w.edit i f).optionals[j]?) = Function.update (fun j => view w.optionals[j]?) i b := by
  obtain ⟨x,found,-⟩ := aliveFound there
  funext j
  rw [editAt]
  by_cases same : i = j
  · subst same
    rw [if_pos rfl,found,Function.update_self]
    exact sets x
  · rw [if_neg same,Function.update_of_ne (Ne.symm same)]

theorem viewAppended {β : Type} (w : World V) (x : Optional V) (view : Option (Optional V) → β) :
    (fun j : Nat => view (w.optionals ++ [x])[j]?) =
      Function.update (fun j => view w.optionals[j]?) w.optionals.length (view (some x)) := by
  funext j
  by_cases last : j = w.optionals.length
  · subst last
    rw [List.getElem?_concat_length,Function.update_self]
  · rw [Function.update_of_ne last,List.getElem?_append]
    split
    · rfl
    · have past : w.optionals.length < j := by omega
      rw [List.getElem?_eq_none (by simp; omega),List.getElem?_eq_none (Nat.le_of_lt past)]

theorem aliveKept (keeps : ∀ x, (f x).gone = x.gone) : (w.edit i f).alive = w.alive :=
  viewKept w i f (fun o => o.any (fun x : Optional V => !x.gone)) (fun x => congrArg (!·) (keeps x))

theorem hasValueKept (keeps : ∀ x, (f x).hasValue = x.hasValue) : (w.edit i f).hasValue = w.hasValue :=
  viewKept w i f (fun o => o.any (fun x : Optional V => x.hasValue)) keeps

theorem heldKept (keeps : ∀ x, (f x).value.map Object.serial = x.value.map Object.serial) :
    (w.edit i f).held = w.held :=
  viewKept w i f (fun o => o.bind (fun x : Optional V => x.value.map Object.serial)) keeps

theorem aliveSet (there : w.alive i = true) {b : Bool} (sets : ∀ x, (f x).gone = !b) :
    (w.edit i f).alive = Function.update w.alive i b :=
  viewSet w i f (fun o => o.any (fun x : Optional V => !x.gone)) there (fun x => by simp [sets])

theorem hasValueSet (there : w.alive i = true) {b : Bool} (sets : ∀ x, (f x).hasValue = b) :
    (w.edit i f).hasValue = Function.update w.hasValue i b :=
  viewSet w i f (fun o => o.any (fun x : Optional V => x.hasValue)) there sets

theorem heldSet (there : w.alive i = true) {k : Option Nat} (sets : ∀ x, (f x).value.map Object.serial = k) :
    (w.edit i f).held = Function.update w.held i k :=
  viewSet w i f (fun o => o.bind (fun x : Optional V => x.value.map Object.serial)) there sets

theorem aliveAppended (w : World V) (x : Optional V) :
    {w with optionals := w.optionals ++ [x]}.alive = Function.update w.alive w.optionals.length (!x.gone) :=
  viewAppended w x (fun o => o.any (fun x : Optional V => !x.gone))

theorem hasValueAppended (w : World V) (x : Optional V) :
    {w with optionals := w.optionals ++ [x]}.hasValue = Function.update w.hasValue w.optionals.length x.hasValue :=
  viewAppended w x (fun o => o.any (fun x : Optional V => x.hasValue))

theorem heldAppended (w : World V) (x : Optional V) : {w with optionals := w.optionals ++ [x]}.held =
    Function.update w.held w.optionals.length (x.value.map Object.serial) :=
  viewAppended w x (fun o => o.bind (fun x : Optional V => x.value.map Object.serial))

theorem readClean {refs : List Nat} (live : ∀ j ∈ refs, (w.held j).isSome = true) : w.read refs = w := by
  have none : refs.filter (fun j => (w.held j).isNone) = [] := by
    refine List.filter_eq_nil_iff.mpr ?_
    intro j member
    obtain ⟨k,holds⟩ := Option.isSome_iff_exists.mp (live j member)
    simp [holds]
  simp [read,none]

theorem readFault {refs : List Nat} {j : Nat} (member : j ∈ refs) (empty : w.held j = none) :
    (w.read refs).faults ≠ [] := by
  have found : Fault.readDead j ∈ (w.read refs).faults := by
    refine List.mem_append_right _ (List.mem_map_of_mem (List.mem_filter.mpr ⟨member,?_⟩))
    simp [empty]
  exact List.ne_nil_of_mem found

theorem alivePlacement (content : Option V) : (w.placementNew i content).alive = w.alive :=
  aliveKept (w := w) (fun _ => rfl)

theorem hasValuePlacement (content : Option V) : (w.placementNew i content).hasValue = w.hasValue :=
  hasValueKept (w := w) (fun _ => rfl)

theorem heldPlacement (there : w.alive i = true) (content : Option V) :
    (w.placementNew i content).held = Function.update w.held i (some w.constructed.length) :=
  heldSet (w := w) there (fun _ => rfl)

theorem aliveLeft (left : V → V) : (w.moveFrom left i).alive = w.alive := aliveKept (fun _ => rfl)

theorem heldLeft (left : V → V) : (w.moveFrom left i).held = w.held := by
  refine heldKept (fun x => ?_)
  cases x.value <;> rfl

theorem aliveFlag (b : Bool) : (w.setHasValue b i).alive = w.alive := aliveKept (fun _ => rfl)

theorem heldFlag (b : Bool) : (w.setHasValue b i).held = w.held := heldKept (fun _ => rfl)

theorem hasValueFlag (there : w.alive i = true) (b : Bool) :
    (w.setHasValue b i).hasValue = Function.update w.hasValue i b := hasValueSet there (fun _ => rfl)

end World

/- What holds of the storage while every operation is careful. -/
structure Inv (w : World V) : Prop where
  ledger : Ledger w.held w.constructed w.destroyed
  flag : ∀ i, w.alive i = true → (w.hasValue i = true ↔ (w.held i).isSome = true)
  gone : ∀ i, w.alive i = false → w.held i = none
  faults : w.faults = []
  copies : ∀ p ∈ w.copies, p.1 = p.2

/- What destory leaves: the storage is empty and the flag is as it was. -/
structure Emptied (i : Nat) (w v : World V) : Prop where
  ledger : Ledger v.held v.constructed v.destroyed
  held : v.held = Function.update w.held i none
  hasValue : v.hasValue = w.hasValue
  alive : v.alive = w.alive
  faults : v.faults = []
  copies : v.copies = w.copies

section
variable {w : World V} {i j : Nat}

theorem keptOfInv (inv : Inv w) : LifetimesKept w :=
  ⟨inv.flag,inv.faults,fun _ i there gone => inv.ledger.emptied (inv.gone i gone) there,inv.copies⟩

theorem hasValueHeld (inv : Inv w) (set : w.hasValue j = true) (there : w.alive j = true) : (w.held j).isSome = true :=
  (inv.flag j there).mp set

theorem noValueHeld (inv : Inv w) (unset : w.hasValue j = false) (there : w.alive j = true) : w.held j = none := by
  cases holds : w.held j with
  | none => rfl
  | some k =>
    have set := (inv.flag j there).mpr (by rw [holds]; rfl)
    rw [unset] at set
    cases set

theorem destoryNothing (unset : w.hasValue i = false) : w.destory i = w := by
  simp [World.destory,unset]

theorem destoryEmpties (inv : Inv w) (there : w.alive i = true) : Emptied i w (w.destory i) := by
  cases set : w.hasValue i with
  | false =>
    have empty := noValueHeld inv set there
    rw [destoryNothing set]
    refine ⟨inv.ledger,?_,rfl,rfl,inv.faults,rfl⟩
    rw [← empty,Function.update_eq_self]
  | true =>
    obtain ⟨k,holds⟩ := Option.isSome_iff_exists.mp (hasValueHeld inv set there)
    have shape : w.destory i = {w.edit i (fun x => {x with value := none}) with destroyed := w.destroyed ++ [k]} := by
      simp [World.destory,set,holds]
    have held : (w.edit i (fun x => {x with value := none})).held = Function.update w.held i none :=
      World.heldSet there (fun _ => rfl)
    rw [shape]
    refine ⟨?_,held,World.hasValueKept (fun _ => rfl),World.aliveKept (fun _ => rfl),inv.faults,rfl⟩
    change Ledger (w.edit i (fun x => {x with value := none})).held w.constructed (w.destroyed ++ [k])
    rw [held]
    exact inv.ledger.destroy holds

/- An operation that changes one Optional, or adds one, keeps what holds of the others. -/
theorem updatedInv {v : World V} {a h : Bool} {k : Option Nat} (inv : Inv w)
    (alive : v.alive = Function.update w.alive i a) (hasValue : v.hasValue = Function.update w.hasValue i h)
    (held : v.held = Function.update w.held i k) (ledger : Ledger v.held v.constructed v.destroyed)
    (flag : a = true → (h = true ↔ k.isSome = true)) (gone : a = false → k = none)
    (faults : v.faults = []) (copies : ∀ p ∈ v.copies, p.1 = p.2) : Inv v := by
  refine ⟨ledger,?_,?_,faults,copies⟩
  · intro j
    rw [alive,hasValue,held]
    by_cases same : j = i
    · subst same
      simpa only [Function.update_self] using flag
    · rw [Function.update_of_ne same,Function.update_of_ne same,Function.update_of_ne same]
      exact inv.flag j
  · intro j
    rw [alive,held]
    by_cases same : j = i
    · subst same
      simpa only [Function.update_self] using gone
    · rw [Function.update_of_ne same,Function.update_of_ne same]
      exact inv.gone j

/- A T constructed in the emptied storage, with the flag set after it. -/
theorem placedInv {v : World V} (inv : Inv w) (there : w.alive i = true) (emptied : Emptied i w v)
    (content : Option V) : Inv ((v.placementNew i content).setHasValue true i) := by
  have here : v.alive i = true := by rw [emptied.alive]; exact there
  have free : v.held i = none := by rw [emptied.held,Function.update_self]
  have placed : (v.placementNew i content).alive i = true := by rw [World.alivePlacement]; exact here
  have held : ((v.placementNew i content).setHasValue true i).held =
      Function.update v.held i (some v.constructed.length) := by
    rw [World.heldFlag,World.heldPlacement here]
  have alive : ((v.placementNew i content).setHasValue true i).alive = Function.update w.alive i true := by
    rw [World.aliveFlag,World.alivePlacement,emptied.alive,← there,Function.update_eq_self]
  have hasValue : ((v.placementNew i content).setHasValue true i).hasValue = Function.update w.hasValue i true := by
    rw [World.hasValueFlag placed,World.hasValuePlacement,emptied.hasValue]
  have stored : ((v.placementNew i content).setHasValue true i).held =
      Function.update w.held i (some v.constructed.length) := by
    rw [held,emptied.held,Function.update_idem]
  refine updatedInv inv alive hasValue stored ?_ (by simp) (by intro left; cases left) ?_ ?_
  · rw [held]
    exact emptied.ledger.construct free
  · change v.faults ++ (if (v.held i).isSome then [Fault.overwritten i] else []) = []
    rw [free,emptied.faults]
    rfl
  · change ∀ p ∈ v.copies, p.1 = p.2
    rw [emptied.copies]
    exact inv.copies

theorem emplaceInv {T : Constructors A V} {args : Args A} {throws : Bool} (inv : Inv w) (there : w.alive i = true)
    (refs : ∀ j ∈ args.refs, w.alive j = true)
    (careful : (throws = true → w.hasValue i = false) ∧ ∀ j ∈ args.refs, j ≠ i ∧ w.hasValue j = true) :
    Inv (emplace T i args throws w) := by
  have emptied := destoryEmpties inv there
  have live : ∀ j ∈ args.refs, ((w.destory i).held j).isSome = true := by
    intro j member
    rw [emptied.held,Function.update_of_ne (careful.2 j member).1]
    exact hasValueHeld inv (careful.2 j member).2 (refs j member)
  unfold emplace
  simp only [World.readClean live]
  cases throws with
  | true =>
    rw [destoryNothing (careful.1 rfl)]
    exact inv
  | false => exact placedInv inv there emptied _

/- An Optional under construction is not yet there. -/
theorem nextUnknown (w : World V) : w.alive w.optionals.length = false ∧ w.held w.optionals.length = none := by
  simp [World.alive,World.held]

theorem heldCreate (w : World V) (b : Bool) (content : Option V) :
    (w.create b content).held = Function.update w.held w.optionals.length (some w.constructed.length) :=
  World.heldAppended w _

theorem aliveCreate (w : World V) (b : Bool) (content : Option V) :
    (w.create b content).alive = Function.update w.alive w.optionals.length true :=
  World.aliveAppended w _

theorem hasValueCreate (w : World V) (b : Bool) (content : Option V) :
    (w.create b content).hasValue = Function.update w.hasValue w.optionals.length b :=
  World.hasValueAppended w _

theorem createInv (inv : Inv w) (content : Option V) : Inv (w.create true content) := by
  refine updatedInv inv (aliveCreate w true content) (hasValueCreate w true content) (heldCreate w true content)
    ?_ (by simp) (by intro left; cases left) inv.faults inv.copies
  rw [heldCreate]
  exact inv.ledger.construct (nextUnknown w).2

theorem defaultInv (inv : Inv w) : Inv (optionalDefault w) := by
  have held : (optionalDefault w).held = Function.update w.held w.optionals.length none := World.heldAppended w _
  refine updatedInv inv (World.aliveAppended w _) (World.hasValueAppended w _) held ?_ (by simp) (fun _ => rfl)
    inv.faults inv.copies
  rw [held,← (nextUnknown w).2,Function.update_eq_self]
  exact inv.ledger

theorem destroyInv (inv : Inv w) (there : w.alive i = true) : Inv (optionalDestroy i w) := by
  have emptied := destoryEmpties inv there
  have here : (w.destory i).alive i = true := by rw [emptied.alive]; exact there
  have held : (optionalDestroy i w).held = Function.update w.held i none :=
    (World.heldKept (f := fun x => {x with gone := true}) (fun _ => rfl)).trans emptied.held
  have hasValue : (optionalDestroy i w).hasValue = Function.update w.hasValue i (w.hasValue i) := by
    rw [Function.update_eq_self]
    exact (World.hasValueKept (f := fun x => {x with gone := true}) (fun _ => rfl)).trans emptied.hasValue
  have alive : (optionalDestroy i w).alive = Function.update w.alive i false :=
    (World.aliveSet here (fun _ => rfl)).trans (by rw [emptied.alive])
  refine updatedInv inv alive hasValue held ?_ (by intro stays; cases stays) (fun _ => rfl) emptied.faults ?_
  · rw [held,← emptied.held]
    exact emptied.ledger
  · change ∀ p ∈ (w.destory i).copies, p.1 = p.2
    rw [emptied.copies]
    exact inv.copies

/- A copy that is logged with equal flags. -/
theorem copiedInv {v : World V} (inv : Inv v) {copies : List (Bool × Bool)} (same : ∀ p ∈ copies, p.1 = p.2) :
    Inv {v with copies := copies} := ⟨inv.ledger,inv.flag,inv.gone,inv.faults,same⟩

theorem equalCopies (inv : Inv w) (b : Bool) : ∀ p ∈ w.copies ++ [(b,b)], p.1 = p.2 := by
  intro p member
  rcases List.mem_append.mp member with old | new
  · exact inv.copies p old
  · cases List.mem_singleton.mp new
    rfl

theorem valueInv {T : Constructors A V} {args : Args A} {throws : Bool} (inv : Inv w)
    (refs : ∀ j ∈ args.refs, w.alive j = true) (careful : ∀ j ∈ args.refs, w.hasValue j = true) :
    Inv (optionalValue T args throws w) := by
  unfold optionalValue
  rw [World.readClean fun j member => hasValueHeld inv (careful j member) (refs j member)]
  split
  · exact inv
  · exact createInv inv _

theorem copyInv {T : Constructors A V} {throws : Bool} (inv : Inv w) (there : w.alive j = true)
    (set : w.hasValue j = true) : Inv (optionalCopy T j throws w) := by
  have live : w.read [j] = w := World.readClean (by simpa using hasValueHeld inv set there)
  unfold optionalCopy
  rw [live,set]
  split
  · exact inv
  · exact copiedInv (createInv inv _) (equalCopies inv true)

theorem copyNonconstInv {T : Constructors A V} {throws : Bool} (inv : Inv w)
    (careful : w.hasValue j = true ∨ throws = true) : Inv (optionalCopyNonconst T j throws w) := by
  unfold optionalCopyNonconst
  rcases careful with set | rfl
  · split
    · exact inv
    · rw [set]
      exact copiedInv (createInv inv _) (equalCopies inv true)
  · exact inv

/- What an operation finds and what it makes of the storage. -/
inductive Step (T : Constructors A V) (w : World V) : Event A → World V → Prop where
  | default : Step T w .default (optionalDefault w)
  | value {args : Args A} {throws : Bool} (refs : ∀ j ∈ args.refs, w.alive j = true) :
    Step T w (.value args throws) (optionalValue T args throws w)
  | copyConst {j : Nat} {throws : Bool} (there : w.alive j = true) :
    Step T w (.copy j true throws) (optionalCopy T j throws w)
  | copyNonconst {j : Nat} {throws : Bool} (there : w.alive j = true) :
    Step T w (.copy j false throws) (optionalCopyNonconst T j throws w)
  | move {j : Nat} {throws : Bool} (there : w.alive j = true) : Step T w (.move j throws) (optionalMove T j throws w)
  | emplace {i : Nat} {args : Args A} {throws : Bool} (there : w.alive i = true)
    (refs : ∀ j ∈ args.refs, w.alive j = true) : Step T w (.emplace i args throws) (emplace T i args throws w)
  | assign {i : Nat} {args : Args A} {throws : Bool} (there : w.alive i = true)
    (refs : ∀ j ∈ args.refs, w.alive j = true) : Step T w (.assign i args throws) (emplace T i args throws w)
  | destroy {i : Nat} (there : w.alive i = true) : Step T w (.destroy i) (optionalDestroy i w)

theorem stepCases {T : Constructors A V} {v : World V} {e : Event A} (ok : step T w e = some v) : Step T w e v := by
  cases e with
  | default => cases Option.some.inj ok; exact .default
  | value args throws =>
    simp only [step] at ok
    split at ok <;> try contradiction
    rename_i refs
    cases Option.some.inj ok
    exact .value (List.all_eq_true.mp refs)
  | copy j isConst throws =>
    simp only [step] at ok
    split at ok <;> try contradiction
    rename_i there
    cases Option.some.inj ok
    cases isConst with
    | true => exact .copyConst there
    | false => exact .copyNonconst there
  | move j throws =>
    simp only [step] at ok
    split at ok <;> try contradiction
    rename_i there
    cases Option.some.inj ok
    exact .move there
  | emplace i args throws =>
    simp only [step] at ok
    split at ok <;> try contradiction
    rename_i found
    obtain ⟨there,refs⟩ := Bool.and_eq_true_iff.mp found
    cases Option.some.inj ok
    exact .emplace there (List.all_eq_true.mp refs)
  | assign i args throws =>
    simp only [step] at ok
    split at ok <;> try contradiction
    rename_i found
    obtain ⟨there,refs⟩ := Bool.and_eq_true_iff.mp found
    cases Option.some.inj ok
    exact .assign there (List.all_eq_true.mp refs)
  | destroy i =>
    simp only [step] at ok
    split at ok <;> try contradiction
    rename_i there
    cases Option.some.inj ok
    exact .destroy there

/- A careful operation keeps what holds of the storage. -/
theorem keepsInv (T : Constructors A V) : Keeps (step T) (fun w e => True ∧ Careful w e) Inv := by
  intro w e v inv careful ok
  have careful := careful.2
  cases stepCases ok with
  | default => exact defaultInv inv
  | value refs => exact valueInv inv refs careful
  | copyConst there => exact copyInv inv there (careful.resolve_right (by simp))
  | copyNonconst _ => exact copyNonconstInv inv (careful.imp id And.right)
  | @move j _ there =>
    obtain ⟨rfl,set⟩ := careful
    have live : w.read [j] = w := World.readClean (by simpa using hasValueHeld inv set there)
    change Inv (w.read [j])
    rw [live]
    exact inv
  | emplace there refs => exact emplaceInv inv there refs careful
  | assign there refs => exact emplaceInv inv there refs careful
  | destroy there => exact destroyInv inv there

/- A fault stays on record. -/
theorem faultLost {v : World V} {earlier later : List Fault} (recorded : v.faults = earlier ++ later)
    (fault : earlier ≠ []) : ¬ LifetimesKept v := by
  intro kept
  have none := kept.faults
  rw [recorded] at none
  exact fault (List.append_eq_nil_iff.mp none).1

theorem valueLost {T : Constructors A V} {args : Args A} {throws : Bool} (inv : Inv w)
    (refs : ∀ j ∈ args.refs, w.alive j = true) (careless : ¬ ∀ j ∈ args.refs, w.hasValue j = true) :
    ¬ LifetimesKept (optionalValue T args throws w) := by
  obtain ⟨j,careless⟩ := not_forall.mp careless
  obtain ⟨member,unset⟩ := Classical.not_imp.mp careless
  have empty := noValueHeld inv (Bool.eq_false_iff.mpr unset) (refs j member)
  have recorded : (optionalValue T args throws w).faults = (w.read args.refs).faults ++ [] := by
    cases throws <;> exact (List.append_nil _).symm
  exact faultLost recorded (World.readFault member empty)

theorem copyLost {T : Constructors A V} {throws : Bool} (inv : Inv w) (there : w.alive j = true)
    (unset : w.hasValue j = false) : ¬ LifetimesKept (optionalCopy T j throws w) := by
  have empty := noValueHeld inv unset there
  have recorded : (optionalCopy T j throws w).faults = (w.read [j]).faults ++ [] := by
    cases throws <;> exact (List.append_nil _).symm
  exact faultLost recorded (World.readFault List.mem_cons_self empty)

theorem copyNonconstLost {T : Constructors A V} (unset : w.hasValue j = false) :
    ¬ LifetimesKept (optionalCopyNonconst T j false w) := by
  intro kept
  have same := kept.copies (w.hasValue j,true) (List.mem_append_right _ List.mem_cons_self)
  rw [unset] at same
  cases same

/- What is moved from keeps its T and loses its flag. -/
theorem movedLost {T : Constructors A V} (inv : Inv w) (there : w.alive j = true) (set : w.hasValue j = true) :
    ¬ LifetimesKept (optionalMove T j false w) := by
  intro kept
  have live : w.read [j] = w := World.readClean (by simpa using hasValueHeld inv set there)
  have apart : j ≠ w.optionals.length := by
    rintro rfl
    rw [(nextUnknown w).1] at there
    cases there
  unfold optionalMove at kept
  rw [live] at kept
  simp only [Bool.false_eq_true,if_false] at kept
  generalize (w.content j).map (fun v => (T.move v).1) = content at kept
  have here : (w.create (w.hasValue j) content).alive j = true := by
    rw [aliveCreate,Function.update_of_ne apart]
    exact there
  have holds : ((w.create (w.hasValue j) content).held j).isSome = true := by
    rw [heldCreate,Function.update_of_ne apart]
    exact hasValueHeld inv set there
  generalize w.create (w.hasValue j) content = v at kept here holds
  have moved : (v.moveFrom (fun v => (T.move v).2) j).alive j = true := by rw [World.aliveLeft]; exact here
  have flag := kept.flag j (by rw [World.aliveFlag]; exact moved)
  rw [World.hasValueFlag moved,Function.update_self,World.heldFlag,World.heldLeft] at flag
  cases flag.mpr holds

theorem moveLost {T : Constructors A V} {throws : Bool} (inv : Inv w) (there : w.alive j = true)
    (careless : ¬ (throws = true ∧ w.hasValue j = true)) : ¬ LifetimesKept (optionalMove T j throws w) := by
  cases set : w.hasValue j with
  | false =>
    have recorded : (optionalMove T j throws w).faults = (w.read [j]).faults ++ [] := by
      cases throws <;> exact (List.append_nil _).symm
    exact faultLost recorded (World.readFault List.mem_cons_self (noValueHeld inv set there))
  | true =>
    cases throws with
    | true => exact absurd ⟨rfl,set⟩ careless
    | false => exact movedLost inv there set

/- The flag outlives the T when the constructor throws. -/
theorem emplaceThrowsLost {T : Constructors A V} {args : Args A} (inv : Inv w) (there : w.alive i = true)
    (set : w.hasValue i = true) : ¬ LifetimesKept (emplace T i args true w) := by
  intro kept
  have emptied := destoryEmpties inv there
  have flag := kept.flag i (by
    change (w.destory i).alive i = true
    rw [emptied.alive]
    exact there)
  change (w.destory i).hasValue i = true ↔ ((w.destory i).held i).isSome = true at flag
  rw [emptied.hasValue,emptied.held,Function.update_self] at flag
  cases flag.mp set

theorem emplaceLost {T : Constructors A V} {args : Args A} {throws : Bool} (inv : Inv w) (there : w.alive i = true)
    (refs : ∀ j ∈ args.refs, w.alive j = true)
    (careless : ¬ ((throws = true → w.hasValue i = false) ∧ ∀ j ∈ args.refs, j ≠ i ∧ w.hasValue j = true)) :
    ¬ LifetimesKept (emplace T i args throws w) := by
  have emptied := destoryEmpties inv there
  by_cases sound : ∀ j ∈ args.refs, j ≠ i ∧ w.hasValue j = true
  · obtain ⟨rfl,set⟩ := Classical.not_imp.mp fun careful => careless ⟨careful,sound⟩
    exact emplaceThrowsLost inv there (by simpa using set)
  · obtain ⟨j,unsound⟩ := not_forall.mp sound
    obtain ⟨member,unsound⟩ := Classical.not_imp.mp unsound
    have empty : (w.destory i).held j = none := by
      rw [emptied.held]
      by_cases own : j = i
      · subst own
        exact Function.update_self ..
      · rw [Function.update_of_ne own]
        have unset : ¬ w.hasValue j = true := fun set => unsound ⟨own,set⟩
        exact noValueHeld inv (Bool.eq_false_iff.mpr unset) (refs j member)
    have fault := World.readFault member empty
    cases throws with
    | true => exact faultLost (List.append_nil _).symm fault
    | false => exact faultLost rfl fault

theorem carelessLost {T : Constructors A V} {v : World V} {e : Event A} (inv : Inv w) (careless : ¬ Careful w e)
    (ok : step T w e = some v) : ¬ LifetimesKept v := by
  cases stepCases ok with
  | default => exact absurd trivial careless
  | destroy _ => exact absurd trivial careless
  | value refs => exact valueLost inv refs careless
  | copyConst there => exact copyLost inv there (Bool.eq_false_iff.mpr (not_or.mp careless).1)
  | @copyNonconst _ throws _ =>
    obtain ⟨unset,other⟩ := not_or.mp careless
    cases throws with
    | true => exact absurd ⟨rfl,rfl⟩ other
    | false => exact copyNonconstLost (Bool.eq_false_iff.mpr unset)
  | move there => exact moveLost inv there careless
  | emplace there refs => exact emplaceLost inv there refs careless
  | assign there refs => exact emplaceLost inv there refs careless

end

theorem startInv : Inv (.start : World V) := by
  refine ⟨Ledger.start,?_,fun _ _ => rfl,rfl,?_⟩
  · intro i there
    cases there
  · intro p member
    cases member

/- For every T and every sequence of operations: the lifetimes are kept in every state
exactly when every operation is careful. -/
theorem lifetimesKeptExactly (T : Constructors A V) (events : List (Event A)) :
    Visits (step T) LifetimesKept .start events ↔ Meets (step T) Careful .start events :=
  visitsIffMeets (keepsInv T) (fun _ => keptOfInv) (fun _ _ _ inv _ careless ok => carelessLost inv careless ok)
    startInv (meetsOfEvents (fun _ _ _ => trivial) _)

end

/- std::string. It has no constructor that takes an Optional, so all its copies are const. -/
def texts : Constructors String String := ⟨fun own _ => own,id,fun v => (v,""),fun _ => ""⟩

def password : Args String := ⟨"secret",[]⟩

/- UserOptions without a password are copied. -/
def copyEmpty : List (Event String) := [.default,.copy 0 true false,.destroy 1]

def emplaceMoved : List (Event String) := [.value password false,.move 0 false,.emplace 0 password false]

def throwingEmplace : List (Event String) := [.value password false,.emplace 0 password true,.destroy 0]

def assignItself : List (Event String) := [.value password false,.assign 0 ⟨"",[0]⟩ false]

theorem lifetimesBroken :
    (∃ w, run (step texts) .start copyEmpty = some w ∧ w.faults = [.readDead 0] ∧ w.constructed = [1] ∧
      w.destroyed = [] ∧ ¬ LifetimesKept w) ∧
    (∃ w, run (step texts) .start emplaceMoved = some w ∧ w.faults = [.overwritten 0] ∧ ¬ LifetimesKept w) ∧
    (∃ w, run (step texts) .start throwingEmplace = some w ∧ w.faults = [.destroyedDead 0] ∧ ¬ LifetimesKept w) ∧
    ∃ w, run (step texts) .start assignItself = some w ∧ w.faults = [.readDead 0] ∧ ¬ LifetimesKept w := by
  refine ⟨⟨_,rfl,rfl,rfl,rfl,?_⟩,⟨_,rfl,rfl,?_⟩,⟨_,rfl,rfl,?_⟩,⟨_,rfl,rfl,?_⟩⟩
  all_goals
    intro kept
    cases kept.faults

end RtcCall.Utility
