import RtcCall.Lib.Runs

/-! A thread that owns a queue of tasks: the loop of the StackThread, whose queue Stop
drains as well, and the loop of a user's DUM thread. The Fifo is first in first out, each
of its calls is one step, and getNext of an empty Fifo gives null. -/
namespace RtcCall.OwnerThread

/- Which loop runs the tasks. The DUM's loop takes one task between two tests of the
flag, afterProcess takes tasks until there is none. -/
inductive Kind where | stackThread | dumThread deriving DecidableEq, Repr

/- `id` counts the posts and is observed only. -/
structure FunctionTask (α : Type) where
  id : Nat
  job : α
  deriving DecidableEq, Repr

/- Where the loop stands: before isShutdown, before getNext (the poll included), inside
Run, and at its end. -/
inductive Loop (α : Type) where
  | isShutdown
  | getNext
  | running (t : FunctionTask α)
  | exited
  deriving DecidableEq, Repr

/- Where Stop stands; `due` is the number of posts when it returned. -/
inductive Stopper (α : Type) where
  | idle
  | getNext
  | running (t : FunctionTask α)
  | joining
  | returned (due : Nat)
  deriving DecidableEq, Repr

inductive Entry where
  | started (id : Nat)
  | finished (id : Nat)
  deriving DecidableEq, Repr

/- How Run ends: it returns, or it throws what the library's loop catches around an
iteration, or what leaves the thread and ends the process. -/
inductive Outcome where | returned | caught | escaped deriving DecidableEq, Repr

structure Owner (α : Type) where
  queue : List (FunctionTask α)
  posts : Nat
  flag : Bool
  loop : Loop α
  stopper : Stopper α
  aborted : Bool
  log : List Entry
  deriving DecidableEq, Repr

def Owner.start {α : Type} : Owner α := ⟨[],0,false,.isShutdown,.idle,false,[]⟩

/- The steps that neither post a task nor end one. -/
inductive Control where
  | isShutdown
  | getNext
  | askShutdown
  | stop
  | stopGetNext
  | join
  deriving DecidableEq, Repr

inductive Move (α : Type) where
  | post (job : α)
  | control (c : Control)
  | finish (o : Outcome)
  | stopFinish (threw : Bool)
  deriving DecidableEq, Repr

variable {α : Type}

def Loop.hand : Loop α → Option (FunctionTask α)
  | .running t => some t
  | .isShutdown | .getNext | .exited => none

def Stopper.hand : Stopper α → Option (FunctionTask α)
  | .running t => some t
  | .idle | .getNext | .joining | .returned _ => none

/- Stop stands inside afterProcess. -/
def Stopper.drains : Stopper α → Bool
  | .getNext | .running _ => true
  | .idle | .joining | .returned _ => false

def Owner.hands (s : Owner α) : List (FunctionTask α) := s.loop.hand.toList ++ s.stopper.hand.toList

/- The tasks that were posted and have not finished. -/
def Owner.held (s : Owner α) : List (FunctionTask α) := s.hands ++ s.queue

def Owner.postImpl (job : α) (s : Owner α) : Owner α :=
  {s with queue := s.queue ++ [⟨s.posts,job⟩], posts := s.posts+1}

def Owner.take (t : FunctionTask α) (rest : List (FunctionTask α)) (s : Owner α) : Owner α :=
  {s with queue := rest, log := s.log ++ [.started t.id]}

def Owner.end (t : FunctionTask α) (s : Owner α) : Owner α := {s with log := s.log ++ [.finished t.id]}

/- Where the loop goes on after a task that returned. -/
def Kind.next : Kind → Loop α
  | .stackThread => .getNext
  | .dumThread => .isShutdown

def Owner.getNext (s : Owner α) : Owner α := match s.queue with
  | [] => {s with loop := .isShutdown}
  | t::rest => {s.take t rest with loop := .running t}

def Owner.stopGetNext (s : Owner α) : Owner α := match s.queue with
  | [] => {s with stopper := .joining}
  | t::rest => {s.take t rest with stopper := .running t}

def Owner.finish (kind : Kind) (t : FunctionTask α) (s : Owner α) : Outcome → Owner α
  | .returned => {s.end t with loop := kind.next}
  | .caught => {s.end t with loop := .isShutdown}
  | .escaped => {s with aborted := true}

def Owner.stopFinish (t : FunctionTask α) (threw : Bool) (s : Owner α) : Owner α :=
  if threw then {s with aborted := true} else {s.end t with stopper := .getNext}

/- The loop will still take what is queued. Once the flag is set, only the loop of
afterProcess goes on. -/
def Loop.serves (kind : Kind) (flag : Bool) : Loop α → Bool
  | .isShutdown => !flag
  | .getNext | .running _ => match kind with
    | .stackThread => true
    | .dumThread => !flag
  | .exited => false

def Owner.loopServes (kind : Kind) (s : Owner α) : Bool := s.loop.serves kind s.flag

def Owner.served (kind : Kind) (s : Owner α) : Bool := s.loopServes kind || s.stopper.drains

/- Stop is the StackThread's: shutdown(), afterProcess(), join(). A DUM thread is asked to
shut down by onDumCanBeDeleted, which the DUM calls while it handles a message. -/
def Owner.control (kind : Kind) (s : Owner α) : Control → Option (Owner α)
  | .isShutdown => match s.loop with
    | .isShutdown => some {s with loop := if s.flag then .exited else .getNext}
    | .getNext | .running _ | .exited => none
  | .getNext => match s.loop with
    | .getNext => some s.getNext
    | .isShutdown | .running _ | .exited => none
  | .askShutdown => match kind,s.loop with
    | .dumThread,.running _ => some {s with flag := true}
    | _,_ => none
  | .stop => match kind,s.stopper with
    | .stackThread,.idle => some {s with flag := true, stopper := .getNext}
    | _,_ => none
  | .stopGetNext => match s.stopper with
    | .getNext => some s.stopGetNext
    | .idle | .running _ | .joining | .returned _ => none
  | .join => match s.stopper,s.loop with
    | .joining,.exited => some {s with stopper := .returned s.posts}
    | _,_ => none

def step (kind : Kind) (s : Owner α) (m : Move α) : Option (Owner α) :=
  if s.aborted then none else match m with
    | .post job => some (s.postImpl job)
    | .control c => s.control kind c
    | .finish o => match s.loop with
      | .running t => some (s.finish kind t o)
      | .isShutdown | .getNext | .exited => none
    | .stopFinish threw => match s.stopper with
      | .running t => some (s.stopFinish t threw)
      | .idle | .getNext | .joining | .returned _ => none

/- Everything a step can do. -/
inductive Controlled (kind : Kind) (s : Owner α) : Control → Owner α → Prop where
  | leave (place : s.loop = .isShutdown) (asked : s.flag = true) :
      Controlled kind s .isShutdown {s with loop := .exited}
  | poll (place : s.loop = .isShutdown) (unasked : s.flag = false) :
      Controlled kind s .isShutdown {s with loop := .getNext}
  | null (place : s.loop = .getNext) (empty : s.queue = []) :
      Controlled kind s .getNext {s with loop := .isShutdown}
  | take {t rest} (place : s.loop = .getNext) (queued : s.queue = t::rest) :
      Controlled kind s .getNext {s.take t rest with loop := .running t}
  | askShutdown {t} (user : kind = .dumThread) (place : s.loop = .running t) :
      Controlled kind s .askShutdown {s with flag := true}
  | stop (stack : kind = .stackThread) (place : s.stopper = .idle) :
      Controlled kind s .stop {s with flag := true, stopper := .getNext}
  | stopNull (place : s.stopper = .getNext) (empty : s.queue = []) :
      Controlled kind s .stopGetNext {s with stopper := .joining}
  | stopTake {t rest} (place : s.stopper = .getNext) (queued : s.queue = t::rest) :
      Controlled kind s .stopGetNext {s.take t rest with stopper := .running t}
  | join (place : s.stopper = .joining) (left : s.loop = .exited) :
      Controlled kind s .join {s with stopper := .returned s.posts}

inductive Step (kind : Kind) (s : Owner α) : Move α → Owner α → Prop where
  | post (job : α) : Step kind s (.post job) (s.postImpl job)
  | control {c u} (ok : Controlled kind s c u) : Step kind s (.control c) u
  | finish {t} (o : Outcome) (place : s.loop = .running t) : Step kind s (.finish o) (s.finish kind t o)
  | stopFinish {t} (threw : Bool) (place : s.stopper = .running t) :
      Step kind s (.stopFinish threw) (s.stopFinish t threw)

section
variable {kind : Kind} {s u : Owner α}

theorem controlCases {c : Control} (ok : s.control kind c = some u) : Controlled kind s c u := by
  unfold Owner.control at ok
  cases c with
  | isShutdown =>
    simp only at ok
    split at ok <;> try contradiction
    rename_i place
    cases Option.some.inj ok
    split <;> rename_i asked
    · exact .leave place asked
    · exact .poll place (Bool.eq_false_iff.mpr asked)
  | getNext =>
    simp only at ok
    split at ok <;> try contradiction
    rename_i place
    cases Option.some.inj ok
    unfold Owner.getNext
    split <;> rename_i queued
    · exact .null place queued
    · exact .take place queued
  | askShutdown =>
    simp only at ok
    split at ok <;> try contradiction
    rename_i place
    cases Option.some.inj ok
    exact .askShutdown rfl place
  | stop =>
    simp only at ok
    split at ok <;> try contradiction
    rename_i place
    cases Option.some.inj ok
    exact .stop rfl place
  | stopGetNext =>
    simp only at ok
    split at ok <;> try contradiction
    rename_i place
    cases Option.some.inj ok
    unfold Owner.stopGetNext
    split <;> rename_i queued
    · exact .stopNull place queued
    · exact .stopTake place queued
  | join =>
    simp only at ok
    split at ok <;> try contradiction
    rename_i place left
    cases Option.some.inj ok
    exact .join place left

theorem stepCases {m : Move α} (ok : step kind s m = some u) : s.aborted = false ∧ Step kind s m u := by
  unfold step at ok
  split at ok <;> try contradiction
  rename_i live
  refine ⟨Bool.eq_false_iff.mpr live,?_⟩
  cases m with
  | post job => cases Option.some.inj ok; exact .post job
  | control c => exact .control (controlCases ok)
  | finish o =>
    simp only at ok
    split at ok <;> try contradiction
    rename_i place
    cases Option.some.inj ok
    exact .finish o place
  | stopFinish threw =>
    simp only at ok
    split at ok <;> try contradiction
    rename_i place
    cases Option.some.inj ok
    exact .stopFinish threw place

theorem heldPost (job : α) : (s.postImpl job).held = s.held ++ [⟨s.posts,job⟩] := by
  simp [Owner.held,Owner.hands,Owner.postImpl]

theorem heldControl {c : Control} (ok : Controlled kind s c u) : s.held.Perm u.held := by
  cases ok with
  | leave place asked => simp [Owner.held,Owner.hands,Loop.hand,place]
  | poll place unasked => simp [Owner.held,Owner.hands,Loop.hand,place]
  | null place empty => simp [Owner.held,Owner.hands,Loop.hand,place]
  | take place queued =>
    simp only [Owner.held,Owner.hands,Owner.take,Loop.hand,place,queued]
    exact List.perm_middle
  | askShutdown user place => simp [Owner.held,Owner.hands]
  | stop stack place => simp [Owner.held,Owner.hands,Stopper.hand,place]
  | stopNull place empty => simp [Owner.held,Owner.hands,Stopper.hand,place]
  | stopTake place queued => simp [Owner.held,Owner.hands,Owner.take,Stopper.hand,place,queued]
  | join place left => simp [Owner.held,Owner.hands,Stopper.hand,place]

theorem heldFinish {t : FunctionTask α} {o : Outcome} (place : s.loop = .running t)
    (live : (s.finish kind t o).aborted = false) : s.held = t::(s.finish kind t o).held := by
  cases o with
  | returned => cases kind <;> simp [Owner.held,Owner.hands,Owner.finish,Owner.end,Kind.next,Loop.hand,place]
  | caught => simp [Owner.held,Owner.hands,Owner.finish,Owner.end,Loop.hand,place]
  | escaped => cases live

theorem heldStopFinish {t : FunctionTask α} {threw : Bool} (place : s.stopper = .running t)
    (live : (s.stopFinish t threw).aborted = false) : s.held.Perm (t::(s.stopFinish t threw).held) := by
  cases threw with
  | true => cases live
  | false =>
    simp only [Owner.held,Owner.hands,Owner.stopFinish,Owner.end,Stopper.hand,place]
    simp

theorem abortedControl {c : Control} (ok : Controlled kind s c u) : u.aborted = s.aborted := by
  cases ok <;> rfl

theorem stopperControl {c : Control} (ok : Controlled kind s c u) (free : u.stopper.hand = none) :
    s.stopper.hand = none := by
  cases ok with
  | leave place asked => exact free
  | poll place unasked => exact free
  | null place empty => exact free
  | take place queued => exact free
  | askShutdown user place => exact free
  | stop stack place => rw [place]; rfl
  | stopNull place empty => rw [place]; rfl
  | stopTake place queued => cases free
  | join place left => rw [place]; rfl

theorem userControl {c : Control} (ok : Controlled .dumThread s c u) (idle : s.stopper = .idle) :
    u.stopper = .idle := by
  cases ok with
  | leave place asked => exact idle
  | poll place unasked => exact idle
  | null place empty => exact idle
  | take place queued => exact idle
  | askShutdown user place => exact idle
  | stop stack place => cases stack
  | stopNull place empty => simp [idle] at place
  | stopTake place queued => simp [idle] at place
  | join place left => simp [idle] at place

theorem queueControl {c : Control} (ok : Controlled kind s c u) {t : FunctionTask α} (queued : t ∈ u.queue) :
    t ∈ s.queue := by
  cases ok with
  | leave place asked => exact queued
  | poll place unasked => exact queued
  | null place empty => exact queued
  | take place shape => exact shape ▸ List.mem_cons_of_mem _ queued
  | askShutdown user place => exact queued
  | stop stack place => exact queued
  | stopNull place empty => exact queued
  | stopTake place shape => exact shape ▸ List.mem_cons_of_mem _ queued
  | join place left => exact queued

/- A queue that somebody looks at is looked at until it is empty, or until a DUM thread is
asked to shut down; `stuck` says that the task Stop runs does not end. -/
theorem servesControl {c : Control} {stuck : Bool} (ok : Controlled kind s c u) (unasked : c ≠ .askShutdown)
    (free : s.stopper.hand = none → stuck = false)
    (serves : (s.loopServes kind || (s.stopper.drains && !stuck)) = true) :
    u.queue = [] ∨ (u.loopServes kind || (u.stopper.drains && !stuck)) = true := by
  cases ok with
  | leave place asked =>
    refine .inr ?_
    simpa [Owner.loopServes,Loop.serves,place,asked] using serves
  | poll place unset =>
    refine .inr ?_
    cases kind <;> simp [Owner.loopServes,Loop.serves,unset]
  | null place empty => exact .inl empty
  | take place shape =>
    refine .inr ?_
    cases kind with
    | stackThread => simp [Owner.loopServes,Loop.serves]
    | dumThread => simpa [Owner.loopServes,Loop.serves,Owner.take,place] using serves
  | askShutdown user place => exact absurd rfl unasked
  | stop stack place =>
    refine .inr ?_
    simp [Stopper.drains,free (by rw [place]; rfl)]
  | stopNull place empty => exact .inl empty
  | stopTake place shape =>
    refine .inr ?_
    simpa [Owner.loopServes,Stopper.drains,Owner.take,place] using serves
  | join place left =>
    refine .inr ?_
    simpa [Owner.loopServes,Stopper.drains,place] using serves

end
end RtcCall.OwnerThread
