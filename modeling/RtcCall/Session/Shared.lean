import RtcCall.Session.Waits

/-! What CreateShared makes, from the constructor to the deleter. The thread that has the
queue constructs the objects and deletes them; the shared_ptr that the caller gets may go
on any thread, and what then goes is a post. -/
namespace RtcCall.Shared
open StepRuns OwnerThread Turns
open Invoke (Fn Job Caller Ran Call createShared outcome setValue)

/- An object is named by its place among those made; `deleted` is in the order of the
deletions. -/
structure Objects (T : Type) where
  made : List T
  deleted : List Nat
  deriving DecidableEq, Repr

section
variable {T E Args : Type}

/- The closure that CreateShared invokes. -/
def construct (make : Args → Except E T) (args : Args) : Fn (Objects T) E Nat := fun d =>
  ((createShared make args d.made).1,{d with made := (createShared make args d.made).2})

/- The closure that the deleter posts; a destructor does not throw. -/
def delete (p : Nat) : Fn (Objects T) E Unit := fun d => (.ok (),{d with deleted := d.deleted ++ [p]})

/- A task that has nothing to do with the objects. -/
def another (r : Except E Unit) : Fn (Objects T) E Unit := fun d => (r,d)

/- `dropped` are the objects whose last shared_ptr has gone. -/
structure World (T E Args : Type) where
  thread : Invoke.World (Objects T) E Nat Args
  dropped : List Nat

def World.start : World T E Args := ⟨.start ⟨[],[]⟩,[]⟩

/- A caller is named by its place among the calls of CreateShared. -/
inductive Event (E Args : Type) where
  | create (caller : Caller) (args : Args)
  | post (r : Except E Unit)
  | drop (c : Nat)
  | control (c : Control)
  | finish
  | stopFinish

/- What the caller has been given. -/
def given (call : Call (Objects T) E Nat Args) : Option Nat := match call.result with
  | some (.ok p) => some p
  | some (.error _) | none => none

def World.handles (w : World T E Args) : List Nat := w.thread.calls.filterMap given

/- What a task deletes, read off its run on no objects at all. -/
def deletes : Job (Objects T) E Args → List Nat
  | .plain f => (f ⟨[],[]⟩).2.deleted
  | .invoke _ _ => []

def World.pending (w : World T E Args) : List Nat := w.thread.owner.held.flatMap (fun t => deletes t.job)

variable (make : Args → Except E T) (caught : E → Bool) (kind : Kind)

def World.does (x : Invoke.Event (Objects T) E Args) (w : World T E Args) : Option (World T E Args) :=
  (Invoke.step (construct make) caught kind w.thread x).map (fun t => {w with thread := t})

def step (w : World T E Args) : Event E Args → Option (World T E Args)
  | .create caller args => w.does make caught kind (.invoke caller args)
  | .post r => w.does make caught kind (.post (another r))
  | .drop c => match (w.thread.calls[c]?).bind given with
    | some p =>
      if p ∈ w.dropped then none
      else World.does make caught kind (.post (delete p)) {w with dropped := w.dropped ++ [p]}
    | none => none
  | .control c => w.does make caught kind (.control c)
  | .finish => w.does make caught kind .finish
  | .stopFinish => w.does make caught kind .stopFinish

end

/-! The books: the tasks that have not finished, the calls, the objects and the dropped. -/
section
variable {T E Args : Type} {make : Args → Except E T} {caught : E → Bool}

structure Books (held : List (FunctionTask (Job (Objects T) E Args))) (calls : List (Call (Objects T) E Nat Args))
    (data : Objects T) (dropped : List Nat) : Prop where
  plain : ∀ t ∈ held, ∀ f, t.job = .plain f → (∃ p, f = delete p) ∨ ∃ r, f = another r
  waiting : ∀ t ∈ held, ∀ c, t.job.call = some c → ∃ call, calls[c]? = some call ∧ call.result = none
  alone : (held.filterMap (·.job.call)).Nodup
  given : (calls.filterMap given).Perm (List.range data.made.length)
  gone : (data.deleted ++ held.flatMap (fun t => deletes t.job)).Perm dropped
  once : dropped.Nodup
  made : ∀ p ∈ dropped, p < data.made.length

/- The constructor returns, and there is one more object, or it throws. -/
theorem constructCases (make : Args → Except E T) (args : Args) (d : Objects T) :
    (∃ x, construct make args d = (.ok d.made.length,{d with made := d.made ++ [x]})) ∨
    ∃ e, construct make args d = (.error e,d) := by
  cases made : make args with
  | ok x => exact .inl ⟨x,by simp [construct,createShared,made]⟩
  | error e => exact .inr ⟨e,by simp [construct,createShared,made]⟩

theorem givenAppend (calls : List (Call (Objects T) E Nat Args)) (call : Call (Objects T) E Nat Args) :
    (calls ++ [call]).filterMap given = calls.filterMap given ++ (given call).toList := by
  rw [List.filterMap_append]
  cases last : given call <;> simp [last]

theorem modifyGiven {calls : List (Call (Objects T) E Nat Args)} {c : Nat} {call : Call (Objects T) E Nat Args}
    {f : Call (Objects T) E Nat Args → Call (Objects T) E Nat Args} (found : calls[c]? = some call)
    (before : given call = none) : ((calls.modify c f).filterMap given).Perm
      (calls.filterMap given ++ (given (f call)).toList) := by
  induction calls generalizing c with
  | nil => cases found
  | cons head rest ih =>
    cases c with
    | zero =>
      cases Option.some.inj found
      rw [List.modify_zero_cons,List.filterMap_cons_none before]
      cases after : given (f call) with
      | none => simp [List.filterMap_cons_none after]
      | some p => simpa [List.filterMap_cons_some after,after] using (List.perm_append_singleton p _).symm
    | succ c =>
      rw [List.modify_succ_cons]
      have later := ih (c := c) (by simpa using found)
      cases first : given head with
      | none => simpa [List.filterMap_cons_none first] using later
      | some p => simpa [List.filterMap_cons_some first] using later.cons p

namespace Books
variable {held other rest : List (FunctionTask (Job (Objects T) E Args))} {calls : List (Call (Objects T) E Nat Args)}
  {data : Objects T} {dropped : List Nat} {t : FunctionTask (Job (Objects T) E Args)}

theorem start : Books ([] : List (FunctionTask (Job (Objects T) E Args))) [] ⟨[],[]⟩ [] := by
  refine ⟨?_,?_,List.nodup_nil,.nil,.nil,List.nodup_nil,?_⟩ <;> simp

theorem perm (same : held.Perm other) (b : Books held calls data dropped) : Books other calls data dropped :=
  ⟨fun t there => b.plain t (same.mem_iff.mpr there),fun t there => b.waiting t (same.mem_iff.mpr there),
    (same.filterMap _).nodup_iff.mp b.alone,b.given,
    (List.Perm.append_left _ (same.flatMap_right _)).symm.trans b.gone,b.once,b.made⟩

theorem another (b : Books held calls data dropped) (k : Nat) (r : Except E Unit) :
    Books (held ++ [⟨k,.plain (Shared.another r)⟩]) calls data dropped := by
  refine ⟨?_,?_,?_,b.given,?_,b.once,b.made⟩
  · intro t there f job
    rcases List.mem_append.mp there with old | new
    · exact b.plain t old f job
    · cases List.mem_singleton.mp new
      exact .inr ⟨r,(Job.plain.inj job).symm⟩
  · intro t there c call
    rcases List.mem_append.mp there with old | new
    · exact b.waiting t old c call
    · cases List.mem_singleton.mp new
      cases call
  · simpa [Job.call] using b.alone
  · simpa [deletes,Shared.another] using b.gone

theorem delete (b : Books held calls data dropped) (k : Nat) {p : Nat} (fresh : p ∉ dropped)
    (inside : p < data.made.length) :
    Books (held ++ [⟨k,.plain (Shared.delete p)⟩]) calls data (dropped ++ [p]) := by
  refine ⟨?_,?_,?_,b.given,?_,?_,?_⟩
  · intro t there f job
    rcases List.mem_append.mp there with old | new
    · exact b.plain t old f job
    · cases List.mem_singleton.mp new
      exact .inl ⟨p,(Job.plain.inj job).symm⟩
  · intro t there c call
    rcases List.mem_append.mp there with old | new
    · exact b.waiting t old c call
    · cases List.mem_singleton.mp new
      cases call
  · simpa [Job.call] using b.alone
  · have more := b.gone.append_right [p]
    simpa [deletes,Shared.delete] using more
  · exact List.nodup_append.mpr ⟨b.once,by simp,by
      rintro q old _ new rfl
      exact fresh (List.mem_singleton.mp new ▸ old)⟩
  · intro q there
    rcases List.mem_append.mp there with old | new
    · exact b.made q old
    · cases List.mem_singleton.mp new
      exact inside

theorem known (b : Books held calls data dropped) {c : Nat} (there : t ∈ held) (call : t.job.call = some c) :
    c < calls.length := by
  obtain ⟨_,found,_⟩ := b.waiting t there c call
  exact (List.getElem?_eq_some_iff.mp found).1

theorem promise (b : Books held calls data dropped) (k : Nat) (args : Args) :
    Books (held ++ [⟨k,.invoke calls.length args⟩]) (calls ++ [⟨args,[],none⟩]) data dropped := by
  refine ⟨?_,?_,?_,?_,?_,b.once,b.made⟩
  · intro t there f job
    rcases List.mem_append.mp there with old | new
    · exact b.plain t old f job
    · cases List.mem_singleton.mp new
      cases job
  · intro t there c call
    rcases List.mem_append.mp there with old | new
    · obtain ⟨x,found,waits⟩ := b.waiting t old c call
      exact ⟨x,by rwa [List.getElem?_append_left (b.known old call)],waits⟩
    · cases List.mem_singleton.mp new
      cases Option.some.inj call
      exact ⟨_,List.getElem?_concat_length ..,rfl⟩
  · rw [List.filterMap_append]
    refine List.nodup_append.mpr ⟨b.alone,by simp [Job.call],?_⟩
    intro c old d new
    obtain ⟨t,there,call⟩ := List.mem_filterMap.mp old
    have before := b.known there call
    have last : d = calls.length := by simpa [Job.call] using new
    omega
  · rw [givenAppend]
    simpa [Shared.given] using b.given
  · simpa [deletes] using b.gone

/- The caller is the thread itself. -/
theorem direct (b : Books held calls data dropped) (args : Args) (runs : List (Objects T × Objects T)) :
    Books held (calls ++ [⟨args,runs,some (construct make args data).1⟩]) (construct make args data).2 dropped := by
  have older : ∀ last : Call (Objects T) E Nat Args, ∀ t ∈ held, ∀ c, t.job.call = some c →
      ∃ call, (calls ++ [last])[c]? = some call ∧ call.result = none := by
    intro last t there c call
    obtain ⟨x,found,waits⟩ := b.waiting t there c call
    exact ⟨x,by rwa [List.getElem?_append_left (b.known there call)],waits⟩
  rcases constructCases make args data with ⟨x,made⟩ | ⟨e,threw⟩
  · rw [made]
    refine ⟨b.plain,older _,b.alone,?_,b.gone,b.once,?_⟩
    · have more := b.given.append_right [data.made.length]
      rw [givenAppend]
      simpa [Shared.given,List.range_succ] using more
    · intro p there
      have inside := b.made p there
      rw [List.length_append]
      omega
  · rw [threw]
    exact ⟨b.plain,older _,b.alone,by rw [givenAppend]; simpa [Shared.given] using b.given,b.gone,b.once,b.made⟩

theorem modified (b : Books (t::rest) calls data dropped) {c : Nat} (own : t.job.call = some c)
    {f : Call (Objects T) E Nat Args → Call (Objects T) E Nat Args} :
    ∀ x ∈ rest, ∀ d, x.job.call = some d → ∃ call, (calls.modify c f)[d]? = some call ∧ call.result = none := by
  intro x there d call
  have apart : c ≠ d := by
    rintro rfl
    have alone := b.alone
    simp only [List.filterMap_cons,own] at alone
    exact (List.nodup_cons.mp alone).1 (List.mem_filterMap.mpr ⟨x,there,call⟩)
  obtain ⟨y,found,waits⟩ := b.waiting x (List.mem_cons_of_mem _ there) d call
  exact ⟨y,by rwa [List.getElem?_modify_ne _ _ apart],waits⟩

end Books

section
variable {w : Invoke.World (Objects T) E Nat Args} {rest : List (FunctionTask (Job (Objects T) E Args))}
  {dropped : List Nat} {t : FunctionTask (Job (Objects T) E Args)}

/- The task ends: what it made has been given, what it deleted is deleted. -/
theorem performed (b : Books (t::rest) w.calls w.data dropped) :
    Books rest (w.perform (construct make) caught t.job).2.calls (w.perform (construct make) caught t.job).2.data
      dropped := by
  have later : ∀ x ∈ rest, ∀ f, x.job = .plain f → (∃ p, f = delete p) ∨ ∃ r, f = another r :=
    fun x there => b.plain x (List.mem_cons_of_mem _ there)
  obtain ⟨k,job⟩ := t
  cases job with
  | plain f =>
    have waiting : ∀ x ∈ rest, ∀ c, x.job.call = some c → ∃ call, w.calls[c]? = some call ∧ call.result = none :=
      fun x there => b.waiting x (List.mem_cons_of_mem _ there)
    rcases b.plain _ List.mem_cons_self f rfl with ⟨p,rfl⟩ | ⟨r,rfl⟩
    · refine ⟨later,waiting,b.alone,b.given,?_,b.once,b.made⟩
      have gone := b.gone
      simpa [Invoke.World.perform,deletes,delete] using gone
    · exact ⟨later,waiting,b.alone,b.given,by simpa [Invoke.World.perform,deletes,another] using b.gone,b.once,b.made⟩
  | invoke c args =>
    obtain ⟨call,found,waits⟩ := b.waiting _ List.mem_cons_self c rfl
    have alone : (rest.filterMap (·.job.call)).Nodup := (List.nodup_cons.mp b.alone).2
    have unanswered : given call = none := by simp [given,waits]
    simp only [Invoke.World.perform,Invoke.World.ran]
    rcases constructCases make args w.data with ⟨x,made⟩ | ⟨e,threw⟩
    · rw [made]
      refine ⟨later,b.modified rfl,alone,?_,b.gone,b.once,?_⟩
      · refine (modifyGiven found unanswered).trans ?_
        have more := b.given.append_right [w.data.made.length]
        simpa [given,setValue,List.range_succ] using more
      · intro p there
        have inside := b.made p there
        rw [List.length_append]
        omega
    · rw [threw]
      refine ⟨later,b.modified rfl,alone,?_,b.gone,b.once,b.made⟩
      refine (modifyGiven found unanswered).trans ?_
      simpa [given,setValue] using b.given

/- A task that throws has made nothing and deleted nothing. -/
theorem thrown (b : Books (t::rest) w.calls w.data dropped)
    (threw : (w.perform (construct make) caught t.job).1 ≠ .returned) :
    Books (t::rest) (w.perform (construct make) caught t.job).2.calls
      (w.perform (construct make) caught t.job).2.data dropped := by
  obtain ⟨k,job⟩ := t
  cases job with
  | plain f =>
    rcases b.plain _ List.mem_cons_self f rfl with ⟨p,rfl⟩ | ⟨r,rfl⟩
    · exact absurd rfl threw
    · exact b
  | invoke c args =>
    obtain ⟨call,found,waits⟩ := b.waiting _ List.mem_cons_self c rfl
    have unanswered : given call = none := by simp [given,waits]
    simp only [Invoke.World.perform,Invoke.World.ran] at threw ⊢
    rcases constructCases make args w.data with ⟨x,made⟩ | ⟨e,raised⟩
    · rw [made] at threw
      exact absurd rfl threw
    · rw [raised]
      refine ⟨b.plain,?_,b.alone,?_,b.gone,b.once,b.made⟩
      · intro x there d own
        rcases List.mem_cons.mp there with rfl | old
        · cases Option.some.inj own
          exact ⟨_,by rw [List.getElem?_modify_eq,found]; rfl,rfl⟩
        · exact b.modified rfl x old d own
      · refine (modifyGiven found unanswered).trans ?_
        simpa [given,setValue] using b.given

end

/- Everything a step can do. -/
inductive Does (make : Args → Except E T) (caught : E → Bool) (kind : Kind) (w : World T E Args) :
    Event E Args → World T E Args → Prop where
  | create {caller args t} (ran : Ran (construct make) caught kind w.thread (.invoke caller args) t) :
      Does make caught kind w (.create caller args) {w with thread := t}
  | post {r t} (ran : Ran (construct make) caught kind w.thread (.post (another r)) t) :
      Does make caught kind w (.post r) {w with thread := t}
  | drop {c p t} (has : (w.thread.calls[c]?).bind given = some p) (fresh : p ∉ w.dropped)
      (ran : Ran (construct make) caught kind w.thread (.post (delete p)) t) :
      Does make caught kind w (.drop c) ⟨t,w.dropped ++ [p]⟩
  | control {c t} (ran : Ran (construct make) caught kind w.thread (.control c) t) :
      Does make caught kind w (.control c) {w with thread := t}
  | finish {t} (ran : Ran (construct make) caught kind w.thread .finish t) :
      Does make caught kind w .finish {w with thread := t}
  | stopFinish {t} (ran : Ran (construct make) caught kind w.thread .stopFinish t) :
      Does make caught kind w .stopFinish {w with thread := t}

theorem doesExact {kind : Kind} {w u : World T E Args} {x : Invoke.Event (Objects T) E Args}
    (ok : w.does make caught kind x = some u) :
    ∃ t, Ran (construct make) caught kind w.thread x t ∧ u = {w with thread := t} := by
  obtain ⟨t,ran,rfl⟩ := Option.map_eq_some_iff.mp ok
  exact ⟨t,Invoke.ranCases ran,rfl⟩

theorem stepDoes {kind : Kind} {w u : World T E Args} {e : Event E Args} (ok : step make caught kind w e = some u) :
    Does make caught kind w e u := by
  cases e with
  | create caller args => obtain ⟨t,ran,rfl⟩ := doesExact ok; exact .create ran
  | post r => obtain ⟨t,ran,rfl⟩ := doesExact ok; exact .post ran
  | drop c =>
    simp only [step] at ok
    split at ok <;> try contradiction
    rename_i p has
    split at ok <;> try contradiction
    rename_i fresh
    obtain ⟨t,ran,rfl⟩ := doesExact ok
    exact .drop has fresh ran
  | control c => obtain ⟨t,ran,rfl⟩ := doesExact ok; exact .control ran
  | finish => obtain ⟨t,ran,rfl⟩ := doesExact ok; exact .finish ran
  | stopFinish => obtain ⟨t,ran,rfl⟩ := doesExact ok; exact .stopFinish ran

def Booked (w : World T E Args) : Prop := Books w.thread.owner.held w.thread.calls w.thread.data w.dropped

theorem doesBooked {kind : Kind} {w u : World T E Args} {e : Event E Args} (b : Booked w)
    (does : Does make caught kind w e u) : Booked u := by
  cases does with
  | create ran =>
    cases ran with
    | direct => exact b.direct _ _
    | promise =>
      simp only [Booked,heldPost]
      exact b.promise _ _
  | @post r t ran =>
    cases ran
    simp only [Booked,heldPost]
    exact b.another _ r
  | @drop c p t has fresh ran =>
    cases ran
    simp only [Booked,heldPost]
    obtain ⟨call,found,got⟩ := Option.bind_eq_some_iff.mp has
    have handle : p ∈ w.thread.calls.filterMap given :=
      List.mem_filterMap.mpr ⟨call,List.mem_of_getElem? found,got⟩
    exact b.delete _ fresh (List.mem_range.mp (b.given.mem_iff.mp handle))
  | control ran =>
    cases ran with
    | control ok => exact b.perm (heldControl ok)
  | finish ran =>
    cases ran with
    | @finish t place =>
      have held : w.thread.owner.held = t::(w.thread.owner.stopper.hand.toList ++ w.thread.owner.queue) := by
        simp [Owner.held,Owner.hands,Loop.hand,place]
      simp only [Booked,held] at b ⊢
      cases ends : (w.thread.perform (construct make) caught t.job).1 with
      | returned =>
        have rest : (w.thread.owner.finish kind t .returned).held =
            w.thread.owner.stopper.hand.toList ++ w.thread.owner.queue := by
          cases kind <;> simp [Owner.held,Owner.hands,Owner.finish,Owner.end,Kind.next,Loop.hand]
        rw [rest]
        exact performed b
      | caught => exact performed b
      | escaped =>
        rw [show (w.thread.owner.finish kind t .escaped).held = w.thread.owner.held from rfl,held]
        exact thrown b (by simp [ends])
  | stopFinish ran =>
    cases ran with
    | @stopFinish t place free =>
      have held : w.thread.owner.held.Perm (t::(w.thread.owner.loop.hand.toList ++ w.thread.owner.queue)) := by
        simp [Owner.held,Owner.hands,Stopper.hand,place]
      have b := b.perm held
      by_cases returned : (w.thread.perform (construct make) caught t.job).1 = .returned
      · have rest : (w.thread.owner.stopFinish t false).held =
            w.thread.owner.loop.hand.toList ++ w.thread.owner.queue := by
          simp [Owner.held,Owner.hands,Owner.stopFinish,Owner.end,Stopper.hand]
        simp only [Booked,returned,bne_self_eq_false,rest]
        exact performed b
      · have same : (w.thread.owner.stopFinish t true).held = w.thread.owner.held := rfl
        simp only [Booked,bne_iff_ne.mpr returned,same]
        exact (thrown b returned).perm held.symm

/- Each object was given to one caller. Those whose last shared_ptr has gone, and no
others, are deleted or about to be: each was deleted once, or one task is to delete it. -/
structure SharedKept (w : World T E Args) : Prop where
  given : w.handles.Perm (List.range w.thread.data.made.length)
  gone : (w.thread.data.deleted ++ w.pending).Perm w.dropped
  once : w.dropped.Nodup
  made : ∀ p ∈ w.dropped, p ∈ w.handles

end

/- Whatever the threads do and in whatever order, and whatever throws: no object is lost
on the way to its caller, none is deleted twice or while somebody has it, and none that is
let go of is forgotten. -/
theorem sharedKept {T E Args : Type} (make : Args → Except E T) (caught : E → Bool) (kind : Kind)
    (events : List (Event E Args)) : Visits (step make caught kind) SharedKept .start events := by
  have keep : Keeps (step make caught kind) (fun _ _ => True) Booked :=
    fun _ _ _ b _ ok => doesBooked b (stepDoes ok)
  have kept : ∀ w : World T E Args, Booked w → SharedKept w := fun w b =>
    ⟨b.given,b.gone,b.once,fun p there => b.given.mem_iff.mpr (List.mem_range.mpr (b.made p there))⟩
  exact visitsMono kept (visitsOfKeeps keep Books.start (meetsOfEvents (fun _ _ _ => trivial) _))

/-! The deletion's turn. -/
section
variable {T E Args : Type} {make : Args → Except E T} {caught : E → Bool} {kind : Kind} {w u : World T E Args}
  {e : Event E Args} {p : Nat}

def byLoop : Event E Args → Bool
  | .control .isShutdown | .control .getNext | .finish => true
  | _ => false

/- The task that deletes the object. -/
def deletesTask (p : Nat) (t : FunctionTask (Job (Objects T) E Args)) : Bool := deletes t.job == [p]

structure Settled (kind : Kind) (w : World T E Args) : Prop where
  booked : Booked w
  user : kind = .dumThread → w.thread.owner.stopper = .idle
  calm : Waits.Calm kind w.thread

theorem startSettled : Settled kind (.start : World T E Args) :=
  ⟨Books.start,fun _ => rfl,fun _ => StackTasks.trackedStart⟩

theorem doesRan (does : Does make caught kind w e u) :
    ∃ x, Ran (construct make) caught kind w.thread x u.thread ∧ Waits.byLoop x = byLoop e := by
  cases does with
  | create ran | post ran | finish ran | stopFinish ran => exact ⟨_,ran,rfl⟩
  | drop has fresh ran => exact ⟨_,ran,rfl⟩
  | @control c t ran => exact ⟨_,ran,by cases c <;> rfl⟩

theorem idleStep {o s : Owner (Job (Objects T) E Args)} {m : Move (Job (Objects T) E Args)}
    (moved : OwnerThread.Step .dumThread o m s) (idle : o.stopper = .idle) : s.stopper = .idle := by
  cases moved with
  | post job => exact idle
  | control ok => exact userControl ok idle
  | finish r place => rwa [Waits.finishStopper]
  | stopFinish threw place => simp [idle] at place

theorem doesSettled (s : Settled kind w) (does : Does make caught kind w e u) : Settled kind u := by
  obtain ⟨x,ran,_⟩ := doesRan does
  refine ⟨doesBooked s.booked does,fun user => ?_,Waits.calmRan s.calm ran⟩
  rcases Waits.ranOwner ran with ⟨_,same⟩ | ⟨m,moved,_⟩
  · rw [same]
    exact s.user user
  · subst user
    exact idleStep moved (s.user rfl)

theorem Settled.idle (s : Settled kind w) (unasked : w.thread.owner.flag = false) : w.thread.owner.stopper = .idle := by
  cases kind with
  | dumThread => exact s.user rfl
  | stackThread =>
    by_contra busy
    rw [(s.calm rfl).asked.mpr busy] at unasked
    cases unasked

/- An object that was let go of and is still there has a task to delete it. -/
theorem Settled.task (s : Settled kind w) (gone : p ∈ w.dropped) (still : p ∉ w.thread.data.deleted) :
    ∃ t ∈ w.thread.owner.held, deletesTask p t = true := by
  rcases List.mem_append.mp (s.booked.gone.mem_iff.mpr gone) with already | pending
  · exact absurd already still
  · obtain ⟨t,held,own⟩ := List.mem_flatMap.mp pending
    refine ⟨t,held,?_⟩
    cases job : t.job with
    | invoke c args => simp [deletes,job] at own
    | plain f =>
      rcases s.booked.plain t held f job with ⟨q,rfl⟩ | ⟨r,rfl⟩
      · simp only [deletes,job,delete,List.nil_append,List.mem_singleton] at own
        simp [deletesTask,deletes,job,delete,own]
      · simp [deletes,job,another] at own

/- The task that deletes the object has deleted it when it ends. -/
theorem finishDeletes {t : FunctionTask (Job (Objects T) E Args)} {v : Invoke.World (Objects T) E Nat Args}
    (s : Settled kind w) (place : w.thread.owner.loop = .running t) (own : deletesTask p t = true)
    (ran : Ran (construct make) caught kind w.thread .finish v) : p ∈ v.data.deleted := by
  cases ran with
  | @finish x there =>
    cases Loop.running.inj (there.symm.trans place)
    have held : t ∈ w.thread.owner.held := by simp [Owner.held,Owner.hands,Loop.hand,place]
    cases job : t.job with
    | invoke c args => simp [deletesTask,deletes,job] at own
    | plain f =>
      rcases s.booked.plain t held f job with ⟨q,rfl⟩ | ⟨r,rfl⟩
      · have same : q = p := by simpa [deletesTask,deletes,job,delete] using own
        simp [Invoke.World.perform,delete,same]
      · simp [deletesTask,deletes,job,another] at own

theorem turnDrop (s : Settled kind w) (unasked : w.thread.owner.flag = false) (gone : p ∈ w.dropped)
    (before : p ∉ w.thread.data.deleted) (does : Does make caught kind w e u)
    (live : u.thread.owner.aborted = false) (still : p ∉ u.thread.data.deleted) :
    (if byLoop e then 1 else 0) + turns (deletesTask p) u.thread.owner ≤ turns (deletesTask p) w.thread.owner := by
  obtain ⟨x,ran,which⟩ := doesRan does
  rw [← which]
  rcases Waits.ranOwner ran with ⟨none,same⟩ | ⟨m,moved,steps,finishes⟩
  · rw [none,same]
    exact Nat.le_of_eq (Nat.zero_add _)
  · rw [← steps]
    refine turnsStep unasked (s.idle unasked) (s.task gone before) ?_ ?_ moved
    · intro escaped
      subst escaped
      rw [escapedAborts moved] at live
      cases live
    · intro t r place finish
      obtain ⟨rfl,_⟩ := finishes r finish
      cases own : deletesTask p t with
      | false => rfl
      | true => exact absurd (finishDeletes s place own ran) still

/- Nothing is brought back. -/
theorem performDeleted {t : FunctionTask (Job (Objects T) E Args)} {v : Invoke.World (Objects T) E Nat Args}
    (b : Books v.owner.held v.calls v.data w.dropped) (held : t ∈ v.owner.held) (already : p ∈ v.data.deleted) :
    p ∈ (v.perform (construct make) caught t.job).2.data.deleted := by
  cases job : t.job with
  | invoke c args => exact already
  | plain f =>
    rcases b.plain t held f job with ⟨q,rfl⟩ | ⟨r,rfl⟩
    · exact List.mem_append_left _ already
    · exact already

theorem doesDeleted (s : Settled kind w) (does : Does make caught kind w e u) (already : p ∈ w.thread.data.deleted) :
    p ∈ u.thread.data.deleted := by
  obtain ⟨x,ran,_⟩ := doesRan does
  generalize u.thread = v at ran
  cases ran with
  | post | direct | promise | control => exact already
  | finish place => exact performDeleted s.booked (by simp [Owner.held,Owner.hands,Loop.hand,place]) already
  | stopFinish place => exact performDeleted s.booked (by simp [Owner.held,Owner.hands,Stopper.hand,place]) already

theorem doesDropped (does : Does make caught kind w e u) (gone : p ∈ w.dropped) : p ∈ u.dropped := by
  cases does with
  | create | post | control | finish | stopFinish => exact gone
  | drop => exact List.mem_append_left _ gone

theorem abortedStep {o s : Owner (Job (Objects T) E Args)} {m : Move (Job (Objects T) E Args)}
    (moved : OwnerThread.Step kind o m s) (ended : o.aborted = true) : s.aborted = true := by
  cases moved with
  | post job => exact ended
  | control ok => rwa [abortedControl ok]
  | finish r place => cases r <;> first | exact ended | rfl
  | stopFinish threw place => cases threw <;> first | exact ended | rfl

theorem doesLive (does : Does make caught kind w e u) (live : u.thread.owner.aborted = false) :
    w.thread.owner.aborted = false := by
  obtain ⟨x,ran,_⟩ := doesRan does
  rcases Waits.ranOwner ran with ⟨_,same⟩ | ⟨m,moved,_⟩
  · rwa [← same]
  · by_contra ended
    rw [abortedStep moved (Bool.not_eq_false _ ▸ ended)] at live
    cases live

end

/- What nobody has any more is deleted in its turn: no more than three steps of the loop
for each task in the queue before its deletion and five more go by before it is, while
nobody asks the thread to shut down and no exception ends the process. -/
theorem deletedInTurn {T E Args : Type} (make : Args → Except E T) (caught : E → Bool) (kind : Kind)
    (before after : List (Event E Args)) (w u : World T E Args) (p : Nat)
    (ran : run (step make caught kind) .start before = some w) (went : run (step make caught kind) w after = some u)
    (gone : p ∈ w.dropped) (live : u.thread.owner.aborted = false)
    (unasked : Meets (step make caught kind) (fun v _ => v.thread.owner.flag = false) w after)
    (enough : 3 * ahead (deletesTask p) w.thread.owner.queue + 5 ≤ after.countP byLoop) :
    p ∈ u.thread.data.deleted := by
  have settles : Keeps (step make caught kind) (fun _ _ => True) (Settled kind) :=
    fun _ _ _ s _ ok => doesSettled s (stepDoes ok)
  have free : ∀ (es : List (Event E Args)) s, Meets (step make caught kind) (fun _ _ => True) s es :=
    fun es => meetsOfEvents (fun _ _ _ => trivial)
  have here : Settled kind w := visitsLast (visitsOfKeeps settles startSettled (free before _)) ran
  have settled := visitsOfKeeps settles here (free after w)
  have stays : Visits (step make caught kind) (fun v => p ∈ v.dropped) w after :=
    visitsOfKeeps (C := fun _ _ => True) (fun _ _ _ gone _ ok => doesDropped (stepDoes ok) gone) gone (free after w)
  by_contra still
  refine turnComes (P := fun v => p ∉ v.thread.data.deleted ∧ v.thread.owner.aborted = false)
    (μ := fun v => turns (deletesTask p) v.thread.owner) (p := byLoop) ?_ ?_
    (meetsBoth (meetsBoth (meetsOfVisits settled) unasked) (meetsOfVisits stays)) went ?_ ⟨still,live⟩
  · exact fun v e x now ok late => ⟨mt (doesDeleted now.1.1 (stepDoes ok)) late.1,doesLive (stepDoes ok) late.2⟩
  · exact fun v e x now before later ok =>
      turnDrop now.1.1 now.1.2 now.2 before.1 (stepDoes ok) later.2 later.1
  · have most := turnsAtMost (p := deletesTask p) w.thread.owner
    omega

/- An object is made for another thread, which lets go of it behind another task. -/
def droppedBehind : List (Event Unit Unit) := [.create .other (),.control .isShutdown,.control .getNext,.finish,
  .post (.ok ()),.drop 0]

def deletedBehind : List (Event Unit Unit) := [.control .isShutdown,.control .getNext,.post (.ok ()),.finish,
  .control .isShutdown,.control .getNext,.finish,.control .isShutdown,.control .getNext]

theorem turnDeleted : ∃ w u,
    run (step (fun _ => .ok ()) (fun _ => false) .dumThread) (.start : World Unit Unit Unit) droppedBehind = some w ∧
    run (step (fun _ => .ok ()) (fun _ => false) .dumThread) w deletedBehind = some u ∧ 0 ∈ u.thread.data.deleted :=
  ⟨_,_,rfl,rfl,deletedInTurn (fun _ => .ok ()) (fun _ => false) .dumThread droppedBehind deletedBehind _ _ 0 rfl rfl
    (by decide) rfl (by decide) (by decide)⟩

end RtcCall.Shared
