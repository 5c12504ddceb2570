import RtcCall.Session.StackTeardown
import Mathlib.Algebra.Order.BigOperators.Group.List
import Mathlib.Algebra.Order.Ring.Nat

/-! The end of a SipStack's destructor. Once it has started, every step of the teardown
that changes anything uses up some of what is left to do, and only a SipUser that the
application still holds, or a DUM that still has usages, can leave it with nothing more
to step: no wake-up is lost, and no thread waits for another that waits for it. -/
namespace RtcCall.TeardownEnds
open StackTeardown StepRuns

/- The usages of a DUM come and go with the registration and the calls. -/
def ofUsages : Event → Bool
  | .usageCreated _ | .usageEnded _ => true
  | _ => false

/- The steps of the program's own threads; the application destroys its SipUsers. -/
def internal : Event → Bool
  | .destroyUser _ => false
  | e => !ofUsages e

/- What the destructor may wait for: the application, or a DUM that was shut down and
has not been able to report yet. -/
def Waits (u : User) : Prop :=
  u.held = true ∨ (u.loop = .looping ∧ u.closing = true ∧ u.flag = false ∧ 0 < u.usages)

/- What is left to do for a user: the destruction, the closure, the flag, and the way
of its thread out of the loop, whose last step also wakes the destructor. -/
def userWeight (u : User) : Nat :=
  (if u.held then 3 else 0) + (if u.posted then 2 else 0) + (if u.closing && !u.flag then 1 else 0) +
    match u.loop with
    | .notRun | .deleted => 0
    | .left => 2
    | .looping => 3

def destructorWeight : Destructor → Nat
  | .idle => 4
  | .asleep true => 3
  | .asleep false => 2
  | .waited => 1
  | .stopped => 0

def weight (w : World) : Nat := (w.users.map userWeight).sum + destructorWeight w.destructor

/- The steps of the teardown that change anything. -/
def changes (w : World) (e : Event) : Nat := if ofUsages e = true ∨ step w e = some w then 0 else 1

/- A user that was returned is held, or its Shutdown is queued, or it has run. -/
structure Placed (u : User) : Prop where
  here : u.create = .returned → u.held = true ∨ u.posted = true ∨ u.closing = true
  held : u.held = true → u.posted = false ∧ u.closing = false
  posted : u.posted = true → u.closing = false

structure Ending (w : World) : Prop where
  inv : Inv w
  placed : ∀ u ∈ w.users, Placed u

section
variable {w v : World} {i : Nat} {u : User}

theorem setSum {f : User → Nat} {g : User → User} {users : List User} (found : users[i]? = some u) :
    ((users.set i (g u)).map f).sum + f u = (users.map f).sum + f (g u) := by
  induction users generalizing i with
  | nil => cases found
  | cons x rest ih =>
    cases i with
    | zero =>
      cases Option.some.inj found
      simp only [List.set_cons_zero,List.map_cons,List.sum_cons]
      omega
    | succ i =>
      have later := ih (i := i) found
      simp only [List.set_cons_succ,List.map_cons,List.sum_cons]
      omega

theorem setPlaced {f : User → User} (placed : ∀ u ∈ w.users, Placed u) (found : w.users[i]? = some u)
    (own : Placed u → Placed (f u)) : ∀ v ∈ w.users.set i (f u), Placed v := by
  intro v member
  obtain ⟨j,held⟩ := List.mem_iff_getElem?.mp member
  rcases setCases held with ⟨_,same⟩ | ⟨_,old⟩
  · rw [same]
    exact own (placed u (List.mem_of_getElem? found))
  · exact placed v (List.mem_of_getElem? old)

/- CreateUser has not returned the user, and nothing else of it changes. -/
theorem setUnreturned {f : User → User} (placed : ∀ u ∈ w.users, Placed u) (found : w.users[i]? = some u)
    (created : (f u).create ≠ .returned) (held : (f u).held = u.held) (posted : (f u).posted = u.posted)
    (closing : (f u).closing = u.closing) : ∀ v ∈ w.users.set i (f u), Placed v := by
  refine setPlaced placed found (fun own => ⟨fun returned => absurd returned created,?_,?_⟩)
  · rw [held,posted,closing]
    exact own.held
  · rw [posted,closing]
    exact own.posted

theorem keepsEnding : Keeps step (fun _ _ => True) Ending := by
  intro w e v ⟨inv,placed⟩ _ ok
  refine ⟨keepsInv w e v inv trivial ok,?_⟩
  cases e with
  | createShared =>
    simp only [step] at ok
    split at ok <;> try contradiction
    cases Option.some.inj ok
    intro u member
    rcases List.mem_append.mp member with old | new
    · exact placed u old
    · cases List.mem_singleton.mp new
      exact ⟨by simp [User.new],by simp [User.new],by simp [User.new]⟩
  | initializeFails i =>
    obtain ⟨u,found,_,same⟩ := editExact ok
    subst same
    exact setUnreturned (f := fun u => {u with create := .failed}) placed found (by simp) rfl rfl rfl
  | run i =>
    obtain ⟨u,found,_,same⟩ := editExact ok
    subst same
    exact setUnreturned (f := fun u => {u with create := .running, loop := .looping}) placed found (by simp)
      rfl rfl rfl
  | addUser i =>
    obtain ⟨x,edited,rfl⟩ := Option.map_eq_some_iff.mp ok
    obtain ⟨u,found,_,rfl⟩ := editExact edited
    exact setUnreturned (f := fun u => {u with create := .added}) placed found (by simp) rfl rfl rfl
  | userReturned i =>
    obtain ⟨u,found,ready,same⟩ := editExact ok
    have added : u.create = .added := eq_of_beq ready
    have bare := mt (inv.sane i u found).object (by rw [added]; decide)
    subst same
    refine setPlaced (f := fun u => {u with create := .returned, held := true}) placed found
      (fun own => ⟨fun _ => .inl rfl,fun _ => ?_,own.posted⟩)
    constructor
    · exact Bool.eq_false_iff.mpr (fun on => bare (.inr (.inl on)))
    · exact Bool.eq_false_iff.mpr (fun on => bare (.inr (.inr (.inl on))))
  | destroyUser i =>
    obtain ⟨u,found,held,same⟩ := editExact ok
    subst same
    exact setPlaced (f := fun u => {u with held := false, posted := true}) placed found
      (fun own => ⟨fun _ => .inr (.inl rfl),by simp,fun _ => (own.held held).2⟩)
  | executeShutdown i =>
    obtain ⟨u,found,ready,same⟩ := editExact ok
    have posted := (Bool.and_eq_true_iff.mp ready).2
    subst same
    refine setPlaced (f := fun u => {u with posted := false, closing := true}) placed found
      (fun own => ⟨fun _ => .inr (.inr rfl),fun held => ?_,by simp⟩)
    exact absurd posted (by simp [(own.held held).1])
  | usageCreated i =>
    obtain ⟨u,found,_,same⟩ := editExact ok
    subst same
    exact setPlaced (f := fun u => {u with usages := u.usages+1}) placed found
      (fun own => ⟨own.here,own.held,own.posted⟩)
  | usageEnded i =>
    obtain ⟨u,found,_,same⟩ := editExact ok
    subst same
    exact setPlaced (f := fun u => {u with usages := u.usages-1}) placed found
      (fun own => ⟨own.here,own.held,own.posted⟩)
  | onDumCanBeDeleted i =>
    obtain ⟨u,found,_,same⟩ := editExact ok
    subst same
    exact setPlaced (f := fun u => {u with flag := true}) placed found (fun own => ⟨own.here,own.held,own.posted⟩)
  | leaveLoop i =>
    obtain ⟨u,found,_,same⟩ := editExact ok
    subst same
    exact setPlaced (f := fun u => {u with loop := .left}) placed found (fun own => ⟨own.here,own.held,own.posted⟩)
  | onUserDeleted i =>
    obtain ⟨x,edited,rfl⟩ := Option.map_eq_some_iff.mp ok
    obtain ⟨u,found,_,rfl⟩ := editExact edited
    exact setPlaced (f := fun u => {u with loop := .deleted, removals := u.removals+1}) placed found
      (fun own => ⟨own.here,own.held,own.posted⟩)
  | destroyStack =>
    simp only [step] at ok
    split at ok <;> try contradiction
    cases Option.some.inj ok
    exact placed
  | wake =>
    simp only [step] at ok
    split at ok <;> try contradiction
    cases Option.some.inj ok
    exact placed
  | stop =>
    simp only [step] at ok
    split at ok <;> try contradiction
    cases Option.some.inj ok
    exact placed

theorem atMostOne (w : World) (e : Event) : changes w e ≤ 1 := by
  unfold changes
  split <;> decide

theorem unchanged {e : Event} (same : step w e = some w) : changes w e = 0 := if_pos (.inr same)

theorem editLess {f : User → User} (found : w.users[i]? = some u) (less : userWeight (f u)+1 ≤ userWeight u) :
    weight {w with users := w.users.set i (f u)}+1 ≤ weight w := by
  have sum := setSum (f := userWeight) (g := f) found
  simp only [weight]
  omega

theorem editSame {f : User → User} (found : w.users[i]? = some u) (same : userWeight (f u) = userWeight u) :
    weight {w with users := w.users.set i (f u)} = weight w := by
  have sum := setSum (f := userWeight) (g := f) found
  simp only [weight]
  omega

theorem signalWeight (d : Destructor) : destructorWeight (signal d) ≤ destructorWeight d+1 := by
  cases d with
  | asleep signalled => cases signalled <;> decide
  | _ => exact Nat.le_succ _

theorem waitWeight (w : World) : destructorWeight (waitAllUsersClosed w).destructor ≤ 2 := by
  simp only [waitAllUsersClosed]
  split <;> decide

theorem destroyLess (held : u.held = true) : userWeight {u with held := false, posted := true}+1 ≤ userWeight u := by
  simp only [userWeight,held,if_true,if_neg Bool.false_ne_true]
  split <;> omega

theorem shutdownLess (posted : u.posted = true) :
    userWeight {u with posted := false, closing := true}+1 ≤ userWeight u := by
  have most : (if (!u.flag) = true then 1 else 0) ≤ 1 := by split <;> decide
  simp only [userWeight,posted,if_true,if_neg Bool.false_ne_true,Bool.true_and]
  omega

theorem flagLess (closing : u.closing = true) (unset : u.flag = false) :
    userWeight {u with flag := true}+1 ≤ userWeight u := by
  simp only [userWeight,closing,unset,Bool.not_true,Bool.not_false,Bool.and_false,Bool.and_self,if_true,
    if_neg Bool.false_ne_true]
  omega

theorem leaveLess (looping : u.loop = .looping) : userWeight {u with loop := .left}+1 ≤ userWeight u := by
  simp only [userWeight,looping]
  omega

theorem deletedLess (left : u.loop = .left) (n : Nat) :
    userWeight {u with loop := .deleted, removals := n}+2 ≤ userWeight u := by
  simp only [userWeight,left]
  omega

/- The thread of the user is out, and the destructor is woken. -/
theorem removedLess (found : w.users[i]? = some u) (left : u.loop = .left) :
    weight (removeUser i {w with users := w.users.set i {u with loop := .deleted, removals := u.removals+1}})+1 ≤
      weight w := by
  have sum := setSum (f := userWeight) (g := fun u => {u with loop := .deleted, removals := u.removals+1}) found
  have less := deletedLess left (u.removals+1)
  have woken := signalWeight w.destructor
  simp only [weight,removeUser]
  omega

theorem flaggedSame (found : w.users[i]? = some u) (set : u.flag = true) :
    {w with users := w.users.set i {u with flag := true}} = w := by
  have same : ({u with flag := true} : User) = u := by
    cases u
    cases set
    rfl
  obtain ⟨bound,value⟩ := List.getElem?_eq_some_iff.mp found
  rw [same,← value,List.set_getElem_self bound]

theorem stepDrops {e : Event} (ending : Ending w) (started : w.destructor ≠ .idle) (ok : step w e = some v) :
    changes w e + weight v ≤ weight w := by
  have one := atMostOne w e
  have created : ∀ {i : Nat} {u : User}, w.users[i]? = some u → u.create.done = true :=
    fun found => ending.inv.created started _ (List.mem_of_getElem? found)
  cases e with
  | createShared =>
    simp only [step,if_neg started] at ok
    cases ok
  | initializeFails i =>
    obtain ⟨u,found,ready,_⟩ := editExact ok
    have whole := created found
    rw [show u.create = .initializing from eq_of_beq ready] at whole
    cases whole
  | run i =>
    obtain ⟨u,found,ready,_⟩ := editExact ok
    have whole := created found
    rw [show u.create = .initializing from eq_of_beq ready] at whole
    cases whole
  | addUser i =>
    obtain ⟨x,edited,_⟩ := Option.map_eq_some_iff.mp ok
    obtain ⟨u,found,ready,_⟩ := editExact edited
    have whole := created found
    rw [show u.create = .running from eq_of_beq ready] at whole
    cases whole
  | userReturned i =>
    obtain ⟨u,found,ready,_⟩ := editExact ok
    have whole := created found
    rw [show u.create = .added from eq_of_beq ready] at whole
    cases whole
  | destroyUser i =>
    obtain ⟨u,found,held,same⟩ := editExact ok
    subst same
    have less := editLess (f := fun u => {u with held := false, posted := true}) found (destroyLess held)
    omega
  | executeShutdown i =>
    obtain ⟨u,found,ready,same⟩ := editExact ok
    have posted := (Bool.and_eq_true_iff.mp ready).2
    subst same
    have less := editLess (f := fun u => {u with posted := false, closing := true}) found (shutdownLess posted)
    omega
  | usageCreated i =>
    obtain ⟨u,found,_,same⟩ := editExact ok
    subst same
    have kept := editSame (f := fun u => {u with usages := u.usages+1}) found rfl
    have free : changes w (.usageCreated i) = 0 := if_pos (.inl rfl)
    omega
  | usageEnded i =>
    obtain ⟨u,found,_,same⟩ := editExact ok
    subst same
    have kept := editSame (f := fun u => {u with usages := u.usages-1}) found rfl
    have free : changes w (.usageEnded i) = 0 := if_pos (.inl rfl)
    omega
  | onDumCanBeDeleted i =>
    have enabled := ok
    obtain ⟨u,found,ready,same⟩ := editExact ok
    have closing := (Bool.and_eq_true_iff.mp (Bool.and_eq_true_iff.mp ready).1).2
    subst same
    cases flag : u.flag with
    | true =>
      rw [flaggedSame found flag] at enabled ⊢
      rw [unchanged enabled]
      omega
    | false =>
      have less := editLess (f := fun u => {u with flag := true}) found (flagLess closing flag)
      omega
  | leaveLoop i =>
    obtain ⟨u,found,ready,same⟩ := editExact ok
    have looping : u.loop = .looping := eq_of_beq (Bool.and_eq_true_iff.mp ready).1
    subst same
    have less := editLess (f := fun u => {u with loop := .left}) found (leaveLess looping)
    omega
  | onUserDeleted i =>
    obtain ⟨x,edited,rfl⟩ := Option.map_eq_some_iff.mp ok
    obtain ⟨u,found,ready,rfl⟩ := editExact edited
    have less := removedLess found (eq_of_beq ready)
    omega
  | destroyStack =>
    simp only [step,started,false_and,if_false] at ok
    cases ok
  | wake =>
    have enabled := ok
    simp only [step] at ok
    split at ok <;> try contradiction
    rename_i signalled asleep
    cases Option.some.inj ok
    cases signalled with
    | true =>
      have tested := waitWeight w
      have signalled : destructorWeight w.destructor = 3 := by rw [asleep]; rfl
      change _ + ((w.users.map userWeight).sum + destructorWeight (waitAllUsersClosed w).destructor) ≤
        (w.users.map userWeight).sum + destructorWeight w.destructor
      omega
    | false =>
      -- a wait that ends without a signal finds a user in the list, and goes on
      have same : waitAllUsersClosed w = w := by
        cases listed : w.listed with
        | nil => exact absurd asleep (ending.inv.awake listed)
        | cons i rest =>
          cases w
          cases asleep
          cases listed
          rfl
      rw [same] at enabled ⊢
      rw [unchanged enabled]
      omega
  | stop =>
    simp only [step] at ok
    split at ok <;> try contradiction
    rename_i waited
    cases Option.some.inj ok
    simp only [weight,waited,destructorWeight]
    omega

theorem staysStarted {e : Event} (started : w.destructor ≠ .idle) (ok : step w e = some v) :
    v.destructor ≠ .idle := by
  cases e with
  | createShared =>
    simp only [step,if_neg started] at ok
    cases ok
  | initializeFails i | run i | userReturned i | destroyUser i | executeShutdown i | usageCreated i | usageEnded i
  | onDumCanBeDeleted i | leaveLoop i =>
    obtain ⟨u,_,_,rfl⟩ := editExact ok
    exact started
  | addUser i | onUserDeleted i =>
    obtain ⟨x,edited,rfl⟩ := Option.map_eq_some_iff.mp ok
    obtain ⟨u,_,_,rfl⟩ := editExact edited
    exact mt signalKeeps.1.mp started
  | destroyStack =>
    simp only [step,started,false_and,if_false] at ok
    cases ok
  | wake =>
    simp only [step] at ok
    split at ok <;> try contradiction
    cases Option.some.inj ok
    simp only [waitAllUsersClosed]
    split <;> simp
  | stop =>
    simp only [step] at ok
    split at ok <;> try contradiction
    cases Option.some.inj ok
    simp

/- A step that leaves less to do is a change. -/
theorem lessChanges (less : weight v+1 ≤ weight w) : v ≠ w := by
  rintro rfl
  omega

def Steps (w : World) : Prop := ∃ e v, internal e = true ∧ step w e = some v ∧ v ≠ w

theorem editSteps {e : Event} {enabled : User → Bool} {f : User → User} (inside : internal e = true)
    (same : step w e = edit i enabled f w) (found : w.users[i]? = some u) (ready : enabled u = true)
    (less : userWeight (f u)+1 ≤ userWeight u) : Steps w := by
  refine ⟨e,_,inside,?_,lessChanges (editLess found less)⟩
  rw [same]
  simp only [edit,found,ready,if_true]

/- A user that is still listed: its thread can step, unless the application holds it or
its DUM has usages. -/
theorem listedSteps (ending : Ending w) (started : w.destructor ≠ .idle) (listed : i ∈ w.listed) :
    (∃ u ∈ w.users, Waits u) ∨ Steps w := by
  obtain ⟨u,found⟩ : ∃ u, w.users[i]? = some u := ⟨_,List.getElem?_eq_getElem (ending.inv.known i listed)⟩
  have member := List.mem_of_getElem? found
  have sane := ending.inv.sane i u found
  have counted : w.listed.count i ≠ 0 := fun none => List.count_eq_zero.mp none listed
  have present : (u.create = .added ∨ u.create = .returned) ∧ u.loop ≠ .deleted := by
    by_cases there : (u.create = .added ∨ u.create = .returned) ∧ u.loop ≠ .deleted
    · exact there
    · exact absurd (sane.entries.trans (if_neg there)) counted
  have returned : u.create = .returned := by
    have whole := ending.inv.created started u member
    rcases present.1 with added | returned
    · rw [added] at whole
      cases whole
    · exact returned
  cases place : u.loop with
  | notRun => simpa [returned] using sane.loop.mp place
  | deleted => exact absurd place present.2
  | left =>
    refine .inr ⟨.onUserDeleted i,_,rfl,?_,lessChanges (removedLess found place)⟩
    simp only [step,edit,found,place,beq_self_eq_true,if_true,Option.map_some]
  | looping =>
    have stepping : (u.loop == .looping) = true := by rw [place]; rfl
    rcases (ending.placed u member).here returned with held | posted | closing
    · exact .inl ⟨u,member,.inl held⟩
    · exact .inr (editSteps (e := .executeShutdown i) rfl rfl found (by simp [stepping,posted]) (shutdownLess posted))
    · cases flag : u.flag with
      | true => exact .inr (editSteps (e := .leaveLoop i) rfl rfl found (by simp [stepping,flag]) (leaveLess place))
      | false =>
        by_cases used : 0 < u.usages
        · exact .inl ⟨u,member,.inr ⟨place,closing,flag,used⟩⟩
        · have empty : (u.usages == 0) = true := beq_iff_eq.mpr (Nat.eq_zero_of_not_pos used)
          exact .inr (editSteps (e := .onDumCanBeDeleted i) rfl rfl found (by simp [stepping,closing,empty])
            (flagLess closing flag))

theorem destructorSteps (ending : Ending w) (started : w.destructor ≠ .idle) :
    w.destructor = .stopped ∨ (∃ u ∈ w.users, Waits u) ∨ Steps w := by
  cases place : w.destructor with
  | idle => contradiction
  | stopped => exact .inl rfl
  | waited =>
    refine .inr (.inr ⟨.stop,{w with destructor := .stopped},rfl,by simp [step,place],fun same => ?_⟩)
    have stopped := congrArg World.destructor same
    rw [place] at stopped
    cases stopped
  | asleep signalled =>
    cases signalled with
    | true =>
      refine .inr (.inr ⟨.wake,waitAllUsersClosed w,rfl,by simp [step,place],fun same => ?_⟩)
      have tested := waitWeight w
      rw [same,place] at tested
      exact absurd tested (by decide)
    | false =>
      cases listed : w.listed with
      | nil => exact absurd place (ending.inv.awake listed)
      | cons i rest => exact .inr (listedSteps ending started (by rw [listed]; exact List.mem_cons_self))

theorem userAtMost (placed : Placed u) : userWeight u ≤ 6 := by
  obtain ⟨_,held,posted⟩ := placed
  have thread : (match u.loop with
    | .notRun | .deleted => 0
    | .left => 2
    | .looping => 3) ≤ 3 := by cases u.loop <;> decide
  have object : (if u.held then 3 else 0) + (if u.posted then 2 else 0) +
      (if u.closing && !u.flag then 1 else 0) ≤ 3 := by
    cases h : u.held <;> cases p : u.posted <;> cases c : u.closing <;> simp_all
    split <;> decide
  simp only [userWeight]
  omega

theorem weightAtMost (placed : ∀ u ∈ w.users, Placed u) (started : w.destructor ≠ .idle) :
    weight w ≤ 6 * w.users.length + 3 := by
  have each : ∀ n ∈ w.users.map userWeight, n ≤ 6 := by
    intro n member
    obtain ⟨u,there,rfl⟩ := List.mem_map.mp member
    exact userAtMost (placed u there)
  have users : (w.users.map userWeight).sum ≤ 6 * w.users.length := by
    simpa [Nat.mul_comm] using (w.users.map userWeight).sum_le_card_nsmul 6 each
  have destructor : destructorWeight w.destructor ≤ 3 := by
    cases place : w.destructor with
    | idle => contradiction
    | asleep signalled => cases signalled <;> decide
    | waited | stopped => decide
  simp only [weight]
  omega

end

/- The destructor has started: whatever the order, no more than six steps for each user
and three more change anything but the usages, and until the stack thread is stopped some
thread of the program can take one, unless the application still holds a SipUser or a DUM
that was shut down still has usages. -/
theorem teardownEnds (events later : List Event) (w u : World) (ok : run step World.start events = some w)
    (started : w.destructor ≠ .idle) (next : run step w later = some u) :
    spent step changes w later ≤ 6 * w.users.length + 3 ∧
    (u.destructor = .stopped ∨ (∃ x ∈ u.users, Waits x) ∨ Steps u) := by
  have start : Ending World.start :=
    ⟨⟨by simp [World.start],by simp [World.start],by simp [World.start],fun _ => rfl,fun _ => by decide⟩,
      by simp [World.start]⟩
  have keeps : Keeps step (fun _ _ => True) (fun w => Ending w ∧ w.destructor ≠ .idle) :=
    fun w e v now _ ok => ⟨keepsEnding w e v now.1 trivial ok,staysStarted now.2 ok⟩
  have free : ∀ (es : List Event) s, Meets step (fun _ _ => True) s es :=
    fun es => meetsOfEvents (fun _ _ _ => trivial)
  have here : Ending w := visitsLast (visitsOfKeeps keepsEnding start (free events _)) ok
  have visits := visitsOfKeeps keeps ⟨here,started⟩ (free later w)
  obtain ⟨ending,running⟩ := visitsLast visits next
  refine ⟨?_,destructorSteps ending running⟩
  have bounded : spent step changes w later + weight u ≤ weight w + spent step (fun _ _ => 0) w later :=
    runBounded (fun s e t now ok => stepDrops now.1 now.2 ok) (meetsOfVisits visits) next
  have most := weightAtMost here.placed started
  rw [spentZero] at bounded
  omega

/- One user, whose SipUser is destroyed while the destructor sleeps, and whose call ends
after that. -/
theorem sleepingEnds : ∃ w u,
    run step World.start [.createShared,.run 0,.addUser 0,.userReturned 0,.usageCreated 0,.destroyStack] = some w ∧
    run step w [.wake,.destroyUser 0,.executeShutdown 0,.usageEnded 0] = some u ∧
    spent step changes w [.wake,.destroyUser 0,.executeShutdown 0,.usageEnded 0] ≤ 6 * w.users.length + 3 ∧
    (u.destructor = .stopped ∨ (∃ x ∈ u.users, Waits x) ∨ Steps u) :=
  ⟨_,_,rfl,rfl,teardownEnds [.createShared,.run 0,.addUser 0,.userReturned 0,.usageCreated 0,.destroyStack]
    [.wake,.destroyUser 0,.executeShutdown 0,.usageEnded 0] _ _ rfl (by decide) rfl⟩

end RtcCall.TeardownEnds
