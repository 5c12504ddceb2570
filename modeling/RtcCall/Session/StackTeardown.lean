import RtcCall.Lib.Runs

/-! The users of a SipStack and its destructor. CreateUser, the destruction of a SipUser,
the DUM thread of each user and the destructor take their steps in any order; AddUser,
RemoveUser and the test of WaitAllUsersClosed hold the manager's mutex, so each is one
step. -/
namespace RtcCall.StackTeardown
open StepRuns

/- Where a call of CreateUser stands: inside Initialize, after `thread_->run()`, after
AddUser, and its two outcomes. -/
inductive CreateUser where | initializing | running | added | failed | returned
  deriving DecidableEq, Repr

/- DumThreadWrapper::thread: not started, in the loop of the DUM, after it, and after
OnUserDeleted. -/
inductive DumLoop where | notRun | looping | left | deleted deriving DecidableEq, Repr

/- `held` says that the application has the SipUser, `posted` that the closure of
Shutdown is in the DUM's queue, `closing` that it has run; `usages` counts the
registration and the dialog sets that the DUM still has, `flag` is the thread's shutdown
flag. `removals` counts the calls of RemoveUser and is observed only. -/
structure User where
  create : CreateUser
  held : Bool
  posted : Bool
  closing : Bool
  usages : Nat
  flag : Bool
  loop : DumLoop
  removals : Nat
  deriving DecidableEq, Repr

def User.new : User := ⟨.initializing,false,false,false,0,false,.notRun,0⟩

/- The destructor: not started, asleep in the wait, after WaitAllUsersClosed, and with
the stack thread stopped. -/
inductive Destructor where
  | idle
  | asleep (signalled : Bool)
  | waited
  | stopped
  deriving DecidableEq, Repr

/- `listed` is `users_`; a user is named by its place in `users`. -/
structure World where
  users : List User
  listed : List Nat
  destructor : Destructor
  deriving DecidableEq, Repr

def World.start : World := ⟨[],[],.idle⟩

/- The condition variable wakes the thread that is asleep, if any. -/
def signal : Destructor → Destructor
  | .asleep _ => .asleep true
  | d => d

def addUser (i : Nat) (w : World) : World :=
  {w with listed := w.listed ++ [i], destructor := signal w.destructor}

def removeUser (i : Nat) (w : World) : World :=
  {w with listed := w.listed.filter (· != i), destructor := signal w.destructor}

/- The loop of WaitAllUsersClosed, from the test to the next wait or to its end. -/
def waitAllUsersClosed (w : World) : World :=
  {w with destructor := if w.listed.isEmpty then .waited else .asleep false}

def CreateUser.done : CreateUser → Bool
  | .failed | .returned => true
  | .initializing | .running | .added => false

def edit (i : Nat) (enabled : User → Bool) (f : User → User) (w : World) : Option World := match w.users[i]? with
  | some u => if enabled u then some {w with users := w.users.set i (f u)} else none
  | none => none

inductive Event where
  | createShared
  | initializeFails (i : Nat)
  | run (i : Nat)
  | addUser (i : Nat)
  | userReturned (i : Nat)
  | destroyUser (i : Nat)
  | executeShutdown (i : Nat)
  | usageCreated (i : Nat)
  | usageEnded (i : Nat)
  | onDumCanBeDeleted (i : Nat)
  | leaveLoop (i : Nat)
  | onUserDeleted (i : Nat)
  | destroyStack
  | wake
  | stop
  deriving DecidableEq, Repr

/- No CreateUser is called once the destructor has started, and it starts when the last
call has returned. The DUM reports that it can be deleted when it was shut down and has
no usage left. The wait may end without a signal. -/
def step (w : World) : Event → Option World
  | .createShared => if w.destructor = .idle then some {w with users := w.users ++ [.new]} else none
  | .initializeFails i => edit i (·.create == .initializing) (fun u => {u with create := .failed}) w
  | .run i => edit i (·.create == .initializing) (fun u => {u with create := .running, loop := .looping}) w
  | .addUser i => (edit i (·.create == .running) (fun u => {u with create := .added}) w).map (addUser i)
  | .userReturned i => edit i (·.create == .added) (fun u => {u with create := .returned, held := true}) w
  | .destroyUser i => edit i (·.held) (fun u => {u with held := false, posted := true}) w
  | .executeShutdown i => edit i (fun u => u.loop == .looping && u.posted)
      (fun u => {u with posted := false, closing := true}) w
  | .usageCreated i => edit i (·.loop == .looping) (fun u => {u with usages := u.usages+1}) w
  | .usageEnded i => edit i (fun u => u.loop == .looping && 0 < u.usages) (fun u => {u with usages := u.usages-1}) w
  | .onDumCanBeDeleted i => edit i (fun u => u.loop == .looping && u.closing && u.usages == 0)
      (fun u => {u with flag := true}) w
  | .leaveLoop i => edit i (fun u => u.loop == .looping && u.flag) (fun u => {u with loop := .left}) w
  | .onUserDeleted i => (edit i (·.loop == .left)
      (fun u => {u with loop := .deleted, removals := u.removals+1}) w).map (removeUser i)
  | .destroyStack =>
    if w.destructor = .idle ∧ w.users.all (·.create.done) = true then some (waitAllUsersClosed w) else none
  | .wake => match w.destructor with
    | .asleep _ => some (waitAllUsersClosed w)
    | .idle | .waited | .stopped => none
  | .stop => if w.destructor = .waited then some {w with destructor := .stopped} else none

/- After the wait every user that was created has left its loop and been removed once,
no thread runs, and the destructor never sleeps on an empty list without a signal. -/
def SafeTeardown (w : World) : Prop :=
  (w.destructor = .waited ∨ w.destructor = .stopped → ∀ u ∈ w.users,
    (u.create = .returned → u.loop = .deleted ∧ u.removals = 1) ∧ u.loop ≠ .looping ∧ u.loop ≠ .left) ∧
  ¬ (w.listed = [] ∧ w.destructor = .asleep false)

theorem editExact {i : Nat} {enabled : User → Bool} {f : User → User} {w v : World}
    (ok : edit i enabled f w = some v) :
    ∃ u, w.users[i]? = some u ∧ enabled u = true ∧ v = {w with users := w.users.set i (f u)} := by
  unfold edit at ok
  split at ok <;> try contradiction
  rename_i u found
  split at ok <;> try contradiction
  rename_i ready
  exact ⟨u,found,ready,(Option.some.inj ok).symm⟩

/- What holds of one user, with the number of its entries in `users_`. The thread runs
before the user is listed, but it can leave its loop only after CreateUser returned. -/
structure Sane (entries : Nat) (u : User) : Prop where
  loop : u.loop = .notRun ↔ u.create = .initializing ∨ u.create = .failed
  object : u.held = true ∨ u.posted = true ∨ u.closing = true ∨ u.flag = true → u.create = .returned
  left : u.loop = .left ∨ u.loop = .deleted → u.create = .returned
  removals : u.removals = if u.loop = .deleted then 1 else 0
  entries : entries = if (u.create = .added ∨ u.create = .returned) ∧ u.loop ≠ .deleted then 1 else 0

structure Inv (w : World) : Prop where
  sane : ∀ (i : Nat) (u : User), w.users[i]? = some u → Sane (w.listed.count i) u
  known : ∀ i ∈ w.listed, i < w.users.length
  created : w.destructor ≠ .idle → ∀ u ∈ w.users, u.create.done = true
  empty : w.destructor = .waited ∨ w.destructor = .stopped → w.listed = []
  awake : w.listed = [] → w.destructor ≠ .asleep false

section
variable {w : World} {i : Nat} {u : User}

theorem setCases {f : User → User} {j : Nat} {v : User} (held : (w.users.set i (f u))[j]? = some v) :
    (j = i ∧ v = f u) ∨ (j ≠ i ∧ w.users[j]? = some v) := by
  rw [List.getElem?_set] at held
  split at held
  · rename_i same
    split at held <;> try contradiction
    exact .inl ⟨same.symm,(Option.some.inj held).symm⟩
  · rename_i other
    exact .inr ⟨fun same => other same.symm,held⟩

theorem setCreated {f : User → User} (found : w.users[i]? = some u)
    (kept : u.create.done = true → (f u).create.done = true) (created : ∀ v ∈ w.users, v.create.done = true) :
    ∀ v ∈ w.users.set i (f u), v.create.done = true := by
  intro v member
  obtain ⟨j,held⟩ := List.mem_iff_getElem?.mp member
  rcases setCases held with ⟨_,same⟩ | ⟨_,old⟩
  · rw [same]
    exact kept (created u (List.mem_of_getElem? found))
  · exact created v (List.mem_of_getElem? old)

/- A step of one user that leaves the list alone. -/
theorem editInv {f : User → User} (inv : Inv w) (found : w.users[i]? = some u)
    (own : Sane (w.listed.count i) u → Sane (w.listed.count i) (f u))
    (kept : u.create.done = true → (f u).create.done = true) : Inv {w with users := w.users.set i (f u)} := by
  refine ⟨?_,?_,?_,inv.empty,inv.awake⟩
  · intro j v held
    rcases setCases held with ⟨same,value⟩ | ⟨_,old⟩
    · subst same
      rw [value]
      exact own (inv.sane j u found)
    · exact inv.sane j v old
  · intro j member
    rw [List.length_set]
    exact inv.known j member
  · intro started
    exact setCreated found kept (inv.created started)

end

theorem createdInv {w : World} (inv : Inv w) (idle : w.destructor = .idle) :
    Inv {w with users := w.users ++ [.new]} := by
  refine ⟨?_,?_,fun started => absurd idle started,inv.empty,inv.awake⟩
  · intro i u held
    rcases grownCases held with old | ⟨rfl,rfl⟩
    · exact inv.sane i u old
    · have absent : w.listed.count w.users.length = 0 :=
        List.count_eq_zero.mpr (fun member => Nat.lt_irrefl _ (inv.known _ member))
      rw [absent]
      exact ⟨by decide,by decide,by decide,rfl,rfl⟩
  · intro i member
    have bound := inv.known i member
    rw [List.length_append]
    omega

theorem waitInv {w : World} (inv : Inv w) (created : ∀ u ∈ w.users, u.create.done = true) :
    Inv (waitAllUsersClosed w) := by
  refine ⟨inv.sane,inv.known,fun _ => created,?_,?_⟩
  · intro after
    cases listed : w.listed with
    | nil => exact listed
    | cons i rest =>
      simp only [waitAllUsersClosed,listed] at after
      rcases after with other | other <;> cases other
  · intro empty
    have listed : w.listed = [] := empty
    simp only [waitAllUsersClosed,listed]
    decide

theorem addUserInv {w : World} {i : Nat} {u : User} (inv : Inv w) (found : w.users[i]? = some u)
    (running : u.create = .running) :
    Inv (addUser i {w with users := w.users.set i {u with create := .added}}) := by
  have idle : w.destructor = .idle := by
    by_cases started : w.destructor = .idle
    · exact started
    · have created := inv.created started u (List.mem_of_getElem? found)
      rw [running] at created
      cases created
  have quiet : signal w.destructor = .idle := by rw [idle]; rfl
  refine ⟨?_,?_,fun started => absurd quiet started,?_,?_⟩
  · intro j v held
    change Sane ((w.listed ++ [i]).count j) v
    rw [List.count_append]
    rcases @setCases w i u (fun u => {u with create := .added}) j v held with ⟨same,value⟩ | ⟨other,old⟩
    · subst same
      have own := inv.sane j u found
      have unlisted : w.listed.count j = 0 := by simpa [running] using own.entries
      have looping : u.loop = .looping := by
        cases place : u.loop with
        | notRun => simpa [running] using own.loop.mp place
        | looping => rfl
        | left => simpa [running] using own.left (.inl place)
        | deleted => simpa [running] using own.left (.inr place)
      have bare := mt own.object (by rw [running]; decide)
      rw [value,unlisted,List.count_singleton_self]
      refine ⟨?_,fun object => absurd object bare,?_,own.removals,?_⟩
      · simp [looping]
      · intro after
        simp [looping] at after
      · simp [looping]
    · have absent : [i].count j = 0 := List.count_eq_zero.mpr (by simpa using other)
      rw [absent]
      exact inv.sane j v old
  · intro j member
    change j < (w.users.set i _).length
    rw [List.length_set]
    rcases List.mem_append.mp member with old | new
    · exact inv.known j old
    · rw [List.mem_singleton.mp new]
      exact (List.getElem?_eq_some_iff.mp found).1
  · intro after
    simp only [addUser,quiet] at after
    rcases after with wrong | wrong <;> cases wrong
  · intro empty
    simp [addUser,quiet]

theorem signalAwake (d : Destructor) : signal d ≠ .asleep false := by
  cases d <;> simp [signal]

theorem signalKeeps {d : Destructor} : (signal d = .idle ↔ d = .idle) ∧ (signal d = .waited ↔ d = .waited) ∧
    (signal d = .stopped ↔ d = .stopped) := by
  cases d <;> simp [signal]

theorem removeUserInv {w : World} {i : Nat} {u : User} (inv : Inv w) (found : w.users[i]? = some u)
    (left : u.loop = .left) :
    Inv (removeUser i {w with users := w.users.set i {u with loop := .deleted, removals := u.removals+1}}) := by
  refine ⟨?_,?_,?_,?_,fun _ => signalAwake _⟩
  · intro j v held
    change Sane ((w.listed.filter (· != i)).count j) v
    rcases @setCases w i u (fun u => {u with loop := .deleted, removals := u.removals+1}) j v held
      with ⟨same,value⟩ | ⟨other,old⟩
    · subst same
      have own := inv.sane j u found
      have gone : (w.listed.filter (· != j)).count j = 0 := List.count_eq_zero.mpr (by simp)
      have counted : u.removals = 0 := by simpa [left] using own.removals
      have whole := own.left (.inl left)
      rw [value,gone]
      refine ⟨?_,own.object,fun _ => whole,?_,?_⟩
      · simp [whole]
      · simp [counted]
      · simp
    · rw [List.count_filter (by simpa using other)]
      exact inv.sane j v old
  · intro j member
    change j < (w.users.set i _).length
    rw [List.length_set]
    exact inv.known j (List.mem_filter.mp member).1
  · intro started
    have created := inv.created (mt signalKeeps.1.mpr started)
    exact setCreated (f := fun u => {u with loop := .deleted, removals := u.removals+1}) found (fun old => old) created
  · intro after
    have before : w.destructor = .waited ∨ w.destructor = .stopped :=
      after.imp signalKeeps.2.1.mp signalKeeps.2.2.mp
    change w.listed.filter (· != i) = []
    rw [inv.empty before]
    rfl

theorem keepsInv : Keeps step (fun _ _ => True) Inv := by
  intro w e v inv _ ok
  cases e with
  | createShared =>
    simp only [step] at ok
    split at ok <;> try contradiction
    rename_i idle
    cases Option.some.inj ok
    exact createdInv inv idle
  | initializeFails i =>
    obtain ⟨u,found,ready,same⟩ := editExact ok
    have initializing : u.create = .initializing := eq_of_beq ready
    subst same
    refine editInv (f := fun u => {u with create := .failed}) inv found (fun own => ?_) (fun _ => rfl)
    have notRun := own.loop.mpr (.inl initializing)
    have bare := mt own.object (by rw [initializing]; decide)
    exact ⟨by simp [notRun],fun object => absurd object bare,by simp [notRun],own.removals,
      by simpa [initializing] using own.entries⟩
  | run i =>
    obtain ⟨u,found,ready,same⟩ := editExact ok
    have initializing : u.create = .initializing := eq_of_beq ready
    subst same
    refine editInv (f := fun u => {u with create := .running, loop := .looping}) inv found (fun own => ?_) ?_
    · have notRun := own.loop.mpr (.inl initializing)
      have bare := mt own.object (by rw [initializing]; decide)
      exact ⟨by simp,fun object => absurd object bare,by simp,by simpa [notRun] using own.removals,
        by simpa [initializing] using own.entries⟩
    · intro created
      rw [initializing] at created
      cases created
  | addUser i =>
    obtain ⟨x,edited,rfl⟩ := Option.map_eq_some_iff.mp ok
    obtain ⟨u,found,ready,rfl⟩ := editExact edited
    exact addUserInv inv found (eq_of_beq ready)
  | userReturned i =>
    obtain ⟨u,found,ready,same⟩ := editExact ok
    have added : u.create = .added := eq_of_beq ready
    subst same
    refine editInv (f := fun u => {u with create := .returned, held := true}) inv found (fun own => ?_) (fun _ => rfl)
    have running : u.loop ≠ .notRun := mt own.loop.mp (by rw [added]; decide)
    exact ⟨by simp [running],fun _ => rfl,fun _ => rfl,own.removals,by simpa [added] using own.entries⟩
  | destroyUser i =>
    obtain ⟨u,found,held,same⟩ := editExact ok
    subst same
    refine editInv (f := fun u => {u with held := false, posted := true}) inv found (fun own => ?_) id
    exact ⟨own.loop,fun _ => own.object (.inl held),own.left,own.removals,own.entries⟩
  | executeShutdown i =>
    obtain ⟨u,found,ready,same⟩ := editExact ok
    have posted := (Bool.and_eq_true_iff.mp ready).2
    subst same
    refine editInv (f := fun u => {u with posted := false, closing := true}) inv found (fun own => ?_) id
    exact ⟨own.loop,fun _ => own.object (.inr (.inl posted)),own.left,own.removals,own.entries⟩
  | usageCreated i =>
    obtain ⟨u,found,_,same⟩ := editExact ok
    subst same
    exact editInv (f := fun u => {u with usages := u.usages+1}) inv found
      (fun own => ⟨own.loop,own.object,own.left,own.removals,own.entries⟩) id
  | usageEnded i =>
    obtain ⟨u,found,_,same⟩ := editExact ok
    subst same
    exact editInv (f := fun u => {u with usages := u.usages-1}) inv found
      (fun own => ⟨own.loop,own.object,own.left,own.removals,own.entries⟩) id
  | onDumCanBeDeleted i =>
    obtain ⟨u,found,ready,same⟩ := editExact ok
    have closing := (Bool.and_eq_true_iff.mp (Bool.and_eq_true_iff.mp ready).1).2
    subst same
    refine editInv (f := fun u => {u with flag := true}) inv found (fun own => ?_) id
    exact ⟨own.loop,fun _ => own.object (.inr (.inr (.inl closing))),own.left,own.removals,own.entries⟩
  | leaveLoop i =>
    obtain ⟨u,found,ready,same⟩ := editExact ok
    obtain ⟨place,flag⟩ := Bool.and_eq_true_iff.mp ready
    have looping : u.loop = .looping := eq_of_beq place
    subst same
    refine editInv (f := fun u => {u with loop := .left}) inv found (fun own => ?_) id
    have returned := own.object (.inr (.inr (.inr flag)))
    exact ⟨by simp [returned],own.object,fun _ => returned,by simpa [looping] using own.removals,
      by simpa [looping] using own.entries⟩
  | onUserDeleted i =>
    obtain ⟨x,edited,rfl⟩ := Option.map_eq_some_iff.mp ok
    obtain ⟨u,found,ready,rfl⟩ := editExact edited
    exact removeUserInv inv found (eq_of_beq ready)
  | destroyStack =>
    simp only [step] at ok
    split at ok <;> try contradiction
    rename_i ready
    cases Option.some.inj ok
    exact waitInv inv (by simpa using ready.2)
  | wake =>
    simp only [step] at ok
    split at ok <;> try contradiction
    rename_i signalled asleep
    cases Option.some.inj ok
    exact waitInv inv (inv.created (by rw [asleep]; simp))
  | stop =>
    simp only [step] at ok
    split at ok <;> try contradiction
    rename_i waited
    cases Option.some.inj ok
    exact ⟨inv.sane,inv.known,fun _ => inv.created (by rw [waited]; decide),fun _ => inv.empty (.inl waited),
      fun _ asleep => by cases asleep⟩

theorem safeOf {w : World} (inv : Inv w) : SafeTeardown w := by
  constructor
  · intro after u member
    obtain ⟨i,found⟩ := List.mem_iff_getElem?.mp member
    have own := inv.sane i u found
    have started : w.destructor ≠ .idle := by
      rcases after with place | place <;> rw [place] <;> decide
    have created := inv.created started u member
    have entries := own.entries
    rw [inv.empty after,List.count_nil] at entries
    have outcome : (u.create = .failed ∧ u.loop = .notRun) ∨ (u.create = .returned ∧ u.loop = .deleted) := by
      cases place : u.create with
      | failed => exact .inl ⟨rfl,own.loop.mpr (.inr place)⟩
      | returned => exact .inr ⟨rfl,by simpa [place] using entries⟩
      | initializing => rw [place] at created; cases created
      | running => rw [place] at created; cases created
      | added => rw [place] at created; cases created
    rcases outcome with ⟨failed,notRun⟩ | ⟨returned,deleted⟩
    · refine ⟨?_,by rw [notRun]; decide,by rw [notRun]; decide⟩
      intro other
      rw [failed] at other
      cases other
    · have removals := own.removals
      rw [if_pos deleted] at removals
      exact ⟨fun _ => ⟨deleted,removals⟩,by rw [deleted]; decide,by rw [deleted]; decide⟩
  · intro ⟨empty,asleep⟩
    exact inv.awake empty asleep

/- Whatever the order of the steps, the teardown is safe in every state reached. -/
theorem teardownSafe (events : List Event) : Visits step SafeTeardown World.start events := by
  have start : Inv World.start :=
    ⟨by simp [World.start],by simp [World.start],by simp [World.start],fun _ => rfl,fun _ => by decide⟩
  exact visitsMono (fun _ => safeOf) (visitsOfKeeps keepsInv start (meetsOfEvents (fun _ _ _ => trivial) _))

/- The destructor sleeps on one user and gets through. -/
example : (run step World.start [.createShared,.run 0,.addUser 0,.userReturned 0,.usageCreated 0,.destroyStack,
    .destroyUser 0,.executeShutdown 0,.usageEnded 0,.onDumCanBeDeleted 0,.leaveLoop 0,.onUserDeleted 0,.wake,
    .stop]).map (·.destructor) = some .stopped := by decide

end RtcCall.StackTeardown
