import RtcCall.Session.CallContext
import RtcCall.Session.OwnerThread

/-! A user and all its calls on its one DUM thread. The closures of every call wait in the
same queue, and the thread takes one and runs it in separate steps. -/
namespace RtcCall.UserCalls
open StepRuns OwnerThread

abbrev Call := CallContext.World

/- A command that a call posted, or anything else the DUM's thread handles: a message from
the network, a timer, a registration's command. -/
inductive Job where
  | closure (i : Nat) (c : CallContext.Closure)
  | other
  deriving DecidableEq, Repr

/- The queue of a call itself stays empty; its closures are in the thread's. -/
structure User where
  thread : Owner Job
  calls : List Call
  deriving DecidableEq, Repr

def User.start : User := ⟨.start,[]⟩

def Job.closureOf (i : Nat) : Job → Option CallContext.Closure
  | .closure j c => if j = i then some c else none
  | .other => none

/- The closures of the call that have not finished. -/
def closuresOf (i : Nat) (o : Owner Job) : List CallContext.Closure := o.held.filterMap (·.job.closureOf i)

def User.closures (i : Nat) (u : User) : List CallContext.Closure := closuresOf i u.thread

/- The user as one of its calls sees it. -/
def User.view (i : Nat) (u : User) : Option Call := (u.calls[i]?).map fun w => {w with queue := u.closures i}

/- What the application may do with a call on its own thread. -/
def ofApp : CallContext.Event → Bool
  | .newCall | .setCallback _ | .release => true
  | .invite t _ | .issue t _ | .getLocalSdp t | .destroy t => t == .app
  | _ => false

/- What happens to a call while the DUM's thread handles a message or runs a closure: the
reports of the DUM, and what the callbacks do with the call. -/
def ofDum : CallContext.Event → Bool
  | .execute | .release => false
  | .invite t _ | .issue t _ | .getLocalSdp t | .destroy t => t == .dum
  | _ => true

inductive Event where
  | create (role : CallContext.Role)
  | app (i : Nat) (e : CallContext.Event)
  | dum (i : Nat) (e : CallContext.Event)
  | post
  | control (c : Control)
  | finish
  deriving DecidableEq, Repr

/- The DUM calls back inside a closure as well: end() reports the termination. -/
def User.handling (u : User) : Bool := match u.thread.loop with
  | .running _ => true
  | .isShutdown | .getNext | .exited => false

/- The call's own step; what it posts goes to the end of the thread's queue. -/
def User.act (i : Nat) (e : CallContext.Event) (u : User) : Option User :=
  (u.calls[i]?).bind fun w => (CallContext.step w e).map fun v =>
    {thread := v.queue.foldl (fun o c => o.postImpl (.closure i c)) u.thread
     calls := u.calls.set i {v with queue := []}}

def User.move (m : Move Job) (u : User) : Option User :=
  (OwnerThread.step .dumThread u.thread m).map fun o => {u with thread := o}

def User.execute (i : Nat) (c : CallContext.Closure) (u : User) : Option User :=
  (u.calls[i]?).bind fun w => match CallContext.execute c w with
    | some v => User.move (.finish .returned) {u with calls := u.calls.set i v}
    | none => u.move (.finish .escaped)

def step (u : User) (e : Event) : Option User := if u.thread.aborted then none else match e with
  | .create role => some {u with calls := u.calls ++ [.initial role]}
  | .app i e => if ofApp e then u.act i e else none
  | .dum i e => if ofDum e && u.handling then u.act i e else none
  | .post => u.move (.post .other)
  | .control c => u.move (.control c)
  | .finish => match u.thread.loop.hand with
    | some ⟨_,.closure i c⟩ => u.execute i c
    | some ⟨_,.other⟩ => u.move (.finish .returned)
    | none => none

section
variable {u v : User} {w x : Call} {i : Nat} {e : Event} {q : List CallContext.Closure}

/- No closure reads or writes the queue. -/
theorem endNowQueue (h : Option CallContext.SessionId) (w : Call) (q : List CallContext.Closure) :
    CallContext.endNow h {w with queue := q} = {CallContext.endNow h w with queue := q} := by
  have valid : CallContext.World.valid {w with queue := q} h = w.valid h := rfl
  have target : CallContext.World.cancelTarget {w with queue := q} = w.cancelTarget := rfl
  simp only [CallContext.endNow,valid,target]
  cases w.valid h with
  | some x => rfl
  | none => cases w.cancelTarget <;> rfl

theorem executeQueue (c : CallContext.Closure) (w : Call) (q : List CallContext.Closure) :
    CallContext.execute c {w with queue := q} =
      (CallContext.execute c w).map fun v => {v with queue := q} := by
  cases c with
  | invite offer =>
    have alive : CallContext.World.contextAlive {w with queue := q} = w.contextAlive := rfl
    simp only [CallContext.execute,alive,Option.map_some]
    split <;> rfl
  | operation t h op =>
    have valid : CallContext.World.valid {w with queue := q} h = w.valid h := rfl
    simp only [CallContext.execute,valid]
    cases w.valid h with
    | none => rfl
    | some x =>
      cases op.calls <;> rfl
  | endCall h =>
    simp only [CallContext.execute,endNowQueue,Option.map_some]
  | getLocalSdp => rfl

theorem dispatchQueue (t : CallContext.Thread) (c : CallContext.Closure) (w : Call) (empty : w.queue = []) :
    CallContext.dispatch t c {w with queue := q} =
      (CallContext.dispatch t c w).map fun v => {v with queue := q ++ v.queue} := by
  cases t with
  | app => simp [CallContext.dispatch,CallContext.post,empty]
  | dum =>
    simp only [CallContext.dispatch,executeQueue]
    cases ran : CallContext.execute c w with
    | none => rfl
    | some v =>
      have kept := (CallContext.executeUntouched ran).2.2
      simp [kept,empty]

theorem whenQueue {enabled : Bool} {next other : Call} (moved : other = {next with queue := q})
    (empty : next.queue = []) : CallContext.when enabled other =
      (CallContext.when enabled next).map fun v => {v with queue := q ++ v.queue} := by
  subst moved
  unfold CallContext.when
  split
  · simp [empty]
  · rfl

/- A step of a call adds to its queue what it would add to an empty one. -/
theorem stepQueue {e : CallContext.Event} (own : e ≠ .execute) (empty : w.queue = []) :
    CallContext.step {w with queue := q} e = (CallContext.step w e).map fun v => {v with queue := q ++ v.queue} := by
  cases e with
  | execute => exact absurd rfl own
  | invite t offer =>
    simp only [CallContext.step]
    split
    · exact dispatchQueue t _ w empty
    · rfl
  | issue t op =>
    simp only [CallContext.step]
    split
    · exact dispatchQueue t _ {w with log := {w.log with issued := w.log.issued ++ [⟨t,w.h,op⟩]}} empty
    · rfl
  | getLocalSdp t =>
    simp only [CallContext.step]
    split
    · exact dispatchQueue t _ w empty
    · rfl
  | destroy t =>
    simp only [CallContext.step]
    split
    · cases t with
      | app => exact dispatchQueue .app _ {w with object := .ending} empty
      | dum =>
        have ran := dispatchQueue (q := q) .dum (.endCall w.h) {w with object := .ending} empty
        simp only [CallContext.destroy]
        rw [ran]
        cases CallContext.dispatch .dum (.endCall w.h) {w with object := .ending} <;> rfl
    · rfl
  | terminated s i final =>
    refine whenQueue ?_ ?_
    · cases final <;> rfl
    · cases final <;> exact empty
  | _ =>
    refine whenQueue ?_ ?_
    · rfl
    · exact empty

/- The calls' own queues stay empty, and no closure is of a call that there is not. -/
structure Inv (u : User) : Prop where
  idle : u.thread.stopper = .idle
  empty : ∀ w ∈ u.calls, w.queue = []
  known : ∀ i, u.calls.length ≤ i → u.closures i = []

theorem closuresPost (o : Owner Job) (job : Job) (i : Nat) :
    closuresOf i (o.postImpl job) = closuresOf i o ++ (job.closureOf i).toList := by
  rw [closuresOf,heldPost,List.filterMap_append]
  cases own : job.closureOf i <;> simp [closuresOf,own]

theorem closuresPosts (cs : List CallContext.Closure) (o : Owner Job) (i j : Nat) :
    closuresOf j (cs.foldl (fun o c => o.postImpl (.closure i c)) o) =
      closuresOf j o ++ if i = j then cs else [] := by
  induction cs generalizing o with
  | nil => simp
  | cons c cs ih =>
    rw [List.foldl_cons,ih,closuresPost]
    by_cases same : i = j
    · simp [Job.closureOf,same]
    · simp [Job.closureOf,same]

theorem stopperPosts (cs : List CallContext.Closure) (o : Owner Job) (i : Nat) :
    (cs.foldl (fun o c => o.postImpl (.closure i c)) o).stopper = o.stopper := by
  induction cs generalizing o with
  | nil => rfl
  | cons c cs ih => exact ih _

theorem closuresControl {c : Control} {o s : Owner Job} (idle : s.stopper = .idle)
    (ok : Controlled .dumThread s c o) (i : Nat) : closuresOf i o = closuresOf i s := by
  have held : o.held = s.held := by
    cases ok with
    | leave place _ | poll place _ | null place _ | askShutdown _ place =>
      simp [Owner.held,Owner.hands,Loop.hand,place]
    | take place queued =>
      simp [Owner.held,Owner.hands,Owner.take,Loop.hand,Stopper.hand,place,queued,idle]
    | stop stack _ => cases stack
    | stopNull place _ | stopTake place _ | join place _ => simp [idle] at place
  rw [closuresOf,closuresOf,held]

theorem closuresFinish {s : Owner Job} {t : FunctionTask Job} (place : s.loop = .running t)
    (live : s.aborted = false) (i : Nat) :
    closuresOf i s = (t.job.closureOf i).toList ++ closuresOf i (s.finish .dumThread t .returned) := by
  have held : s.held = t::(s.finish .dumThread t .returned).held := heldFinish place live
  rw [closuresOf,held,List.filterMap_cons]
  cases own : t.job.closureOf i <;> simp [closuresOf]

theorem viewFound (found : u.calls[i]? = some w) : u.view i = some {w with queue := u.closures i} := by
  rw [User.view,found]
  rfl

theorem viewSame {t : Owner Job} {calls : List Call} {j : Nat} (closures : closuresOf j t = u.closures j)
    (same : calls[j]? = u.calls[j]?) : User.view j ⟨t,calls⟩ = u.view j := by
  simp only [User.view,same]
  rw [show User.closures j ⟨t,calls⟩ = u.closures j from closures]

/- The steps that the application and the DUM take with the call. -/
def ofCall (i : Nat) : Event → Option CallContext.Event
  | .app j e | .dum j e => if j = i then some e else none
  | .create _ | .post | .control _ | .finish => none

/- What a step is for one of the calls: nothing, its beginning, or a step of its own. -/
def Steps (i : Nat) (u : User) (e : Event) (v : User) : Prop :=
  (ofCall i e = none ∧ v.view i = u.view i) ∨
  (ofCall i e = none ∧ u.view i = none ∧ ∃ role, v.view i = some (.initial role)) ∨
  ∃ w x own, u.view i = some w ∧ v.view i = some x ∧ CallContext.step w own = some x ∧
    [own].filter (· != .execute) = (ofCall i e).toList

theorem emptySet (inv : Inv u) (empty : x.queue = []) : ∀ y ∈ u.calls.set i x, y.queue = [] := by
  intro y member
  rcases List.mem_or_eq_of_mem_set member with old | new
  · exact inv.empty y old
  · rw [new]
    exact empty

theorem actExact {e : CallContext.Event} (ok : u.act i e = some v) :
    ∃ w x, u.calls[i]? = some w ∧ CallContext.step w e = some x ∧
      v = ⟨x.queue.foldl (fun o c => o.postImpl (.closure i c)) u.thread,u.calls.set i {x with queue := []}⟩ := by
  obtain ⟨w,found,ok⟩ := Option.bind_eq_some_iff.mp ok
  obtain ⟨x,stepped,rfl⟩ := Option.map_eq_some_iff.mp ok
  exact ⟨w,x,found,stepped,rfl⟩

theorem actInv {e : CallContext.Event} (inv : Inv u) (ok : u.act i e = some v) : Inv v := by
  obtain ⟨w,x,found,stepped,rfl⟩ := actExact ok
  refine ⟨?_,emptySet inv rfl,?_⟩
  · rw [stopperPosts]
    exact inv.idle
  · intro j beyond
    rw [List.length_set] at beyond
    have inside := (List.getElem?_eq_some_iff.mp found).1
    rw [User.closures,closuresPosts,if_neg (by omega),List.append_nil]
    exact inv.known j beyond

theorem actSteps {e : CallContext.Event} (inv : Inv u) (own : e ≠ .execute) (ok : u.act i e = some v) {f : Event}
    (which : ∀ j, ofCall j f = if i = j then some e else none) (j : Nat) : Steps j u f v := by
  obtain ⟨w,x,found,stepped,rfl⟩ := actExact ok
  by_cases same : i = j
  · subst same
    have inside := (List.getElem?_eq_some_iff.mp found).1
    have posted := closuresPosts x.queue u.thread i i
    rw [if_pos rfl] at posted
    refine .inr (.inr ⟨_,_,e,viewFound found,viewFound (List.getElem?_set_self inside),?_,?_⟩)
    · rw [stepQueue own (inv.empty w (List.mem_of_getElem? found)),stepped]
      exact congrArg (fun q => some {x with queue := q}) posted.symm
    · simp [which,own]
  · refine .inl ⟨(which j).trans (if_neg same),viewSame ?_ (List.getElem?_set_ne same)⟩
    rw [closuresPosts,if_neg same,List.append_nil]
    rfl

theorem moveExact {m : Move Job} (ok : u.move m = some v) :
    ∃ o, OwnerThread.Step .dumThread u.thread m o ∧ v = ⟨o,u.calls⟩ := by
  obtain ⟨o,moved,rfl⟩ := Option.map_eq_some_iff.mp ok
  exact ⟨o,(stepCases moved).2,rfl⟩

theorem executeSteps {k : Nat} {c : CallContext.Closure} (inv : Inv u) (live : u.thread.aborted = false)
    (place : u.thread.loop = .running ⟨k,.closure i c⟩) (ok : u.execute i c = some v) (j : Nat) :
    Inv v ∧ Steps j u .finish v := by
  obtain ⟨w,found,ok⟩ := Option.bind_eq_some_iff.mp ok
  have inside := (List.getElem?_eq_some_iff.mp found).1
  have empty := inv.empty w (List.mem_of_getElem? found)
  split at ok
  · rename_i x ran
    obtain ⟨o,moved,rfl⟩ := moveExact ok
    cases moved with
    | @finish t _ there =>
      cases Loop.running.inj (there.symm.trans place)
      have closures := closuresFinish place live
      refine ⟨⟨inv.idle,emptySet inv ((CallContext.executeUntouched ran).2.2.trans empty),?_⟩,?_⟩
      · intro j beyond
        rw [List.length_set] at beyond
        have before := inv.known j beyond
        rw [User.closures,closures j] at before
        exact (List.append_eq_nil_iff.mp before).2
      · by_cases same : i = j
        · subst same
          refine .inr (.inr ⟨_,_,.execute,viewFound found,viewFound (List.getElem?_set_self inside),?_,rfl⟩)
          have head := closures i
          simp only [Job.closureOf,if_true,Option.toList_some,List.singleton_append] at head
          simp only [CallContext.step,User.closures,head]
          rw [executeQueue,ran]
          rfl
        · refine .inl ⟨rfl,viewSame ?_ (List.getElem?_set_ne same)⟩
          have head := closures j
          simp only [Job.closureOf,if_neg same,Option.toList_none,List.nil_append] at head
          exact head.symm
  · obtain ⟨o,moved,rfl⟩ := moveExact ok
    cases moved with
    | finish _ there => exact ⟨⟨inv.idle,inv.empty,inv.known⟩,.inl ⟨rfl,viewSame rfl rfl⟩⟩

/- A step of the thread in which no call has a part. -/
theorem threadSteps {o : Owner Job} (inv : Inv u) (idle : o.stopper = .idle)
    (same : ∀ j, closuresOf j o = u.closures j) {e : Event} (none : ∀ j, ofCall j e = none) :
    Inv ⟨o,u.calls⟩ ∧ ∀ j, Steps j u e ⟨o,u.calls⟩ := by
  refine ⟨⟨idle,inv.empty,?_⟩,fun j => .inl ⟨none j,viewSame (same j) rfl⟩⟩
  intro j beyond
  exact (same j).trans (inv.known j beyond)

theorem createSteps (inv : Inv u) (role : CallContext.Role) :
    Inv {u with calls := u.calls ++ [.initial role]} ∧
      ∀ j, Steps j u (.create role) {u with calls := u.calls ++ [.initial role]} := by
  refine ⟨⟨inv.idle,?_,?_⟩,?_⟩
  · intro w member
    rcases List.mem_append.mp member with old | new
    · exact inv.empty w old
    · cases List.mem_singleton.mp new
      rfl
  · intro j beyond
    rw [List.length_append] at beyond
    exact inv.known j (by omega)
  · intro j
    by_cases last : j = u.calls.length
    · subst last
      have none := List.getElem?_eq_none (Nat.le_refl u.calls.length)
      refine .inr (.inl ⟨rfl,by rw [User.view,none]; rfl,role,?_⟩)
      rw [viewFound (u := {u with calls := u.calls ++ [.initial role]}) List.getElem?_concat_length]
      exact congrArg (fun q => some {CallContext.World.initial role with queue := q}) (inv.known _ (Nat.le_refl _))
    · refine .inl ⟨rfl,viewSame rfl ?_⟩
      rcases Nat.lt_or_gt_of_ne last with before | after
      · exact List.getElem?_append_left before
      · rw [List.getElem?_eq_none (by simp; omega),List.getElem?_eq_none (by omega)]

theorem stepSteps {e : Event} (inv : Inv u) (ok : step u e = some v) : Inv v ∧ ∀ j, Steps j u e v := by
  unfold step at ok
  split at ok <;> try contradiction
  rename_i running
  have live := Bool.eq_false_iff.mpr running
  cases e with
  | create role =>
    cases Option.some.inj ok
    exact createSteps inv role
  | app i e =>
    simp only at ok
    split at ok <;> try contradiction
    rename_i allowed
    have own : e ≠ .execute := by
      rintro rfl
      cases allowed
    exact ⟨actInv inv ok,actSteps inv own ok fun _ => rfl⟩
  | dum i e =>
    simp only at ok
    split at ok <;> try contradiction
    rename_i allowed
    have own : e ≠ .execute := by
      rintro rfl
      cases allowed
    exact ⟨actInv inv ok,actSteps inv own ok fun _ => rfl⟩
  | post =>
    obtain ⟨o,moved,rfl⟩ := moveExact ok
    cases moved with
    | post job =>
      refine threadSteps inv ?_ ?_ fun _ => rfl
      · exact inv.idle
      · intro j
        rw [closuresPost]
        exact List.append_nil _
  | control c =>
    obtain ⟨o,moved,rfl⟩ := moveExact ok
    cases moved with
    | control ok => exact threadSteps inv (userControl ok inv.idle) (closuresControl inv.idle ok) fun _ => rfl
  | finish =>
    simp only at ok
    cases place : u.thread.loop with
    | running t =>
      rw [place] at ok
      obtain ⟨k,job⟩ := t
      cases job with
      | closure i c =>
        have each := executeSteps inv live place ok
        exact ⟨(each 0).1,fun j => (each j).2⟩
      | other =>
        obtain ⟨o,moved,rfl⟩ := moveExact ok
        cases moved with
        | finish _ there =>
          cases Loop.running.inj (there.symm.trans place)
          refine threadSteps inv ?_ ?_ fun _ => rfl
          · exact inv.idle
          · intro j
            exact (closuresFinish place live j).symm
    | isShutdown | getNext | exited =>
      rw [place] at ok
      cases ok

/- Each call has run alone so far. -/
structure Alone (past : List Event) (u : User) : Prop where
  inv : Inv u
  unborn : ∀ i, u.view i = none → past.filterMap (ofCall i) = []
  runs : ∀ i w, u.view i = some w → ∃ own, run CallContext.step (.initial w.role) own = some w ∧
    own.filter (· != .execute) = past.filterMap (ofCall i)

theorem startAlone : Alone [] User.start := by
  refine ⟨⟨rfl,by simp [User.start],fun _ _ => rfl⟩,fun _ _ => rfl,?_⟩
  intro i w there
  simp [User.view,User.start] at there

theorem runMore {own : List CallContext.Event} {f : CallContext.Event} {s : Call}
    (ran : run CallContext.step s own = some w) (next : CallContext.step w f = some x) :
    run CallContext.step s (own ++ [f]) = some x :=
  runAppend ran (by simp only [run,next])

theorem stepAlone (past : List Event) (u : User) (e : Event) (v : User) (alone : Alone past u)
    (ok : step u e = some v) : Alone (past ++ [e]) v := by
  obtain ⟨inv,steps⟩ := stepSteps alone.inv ok
  refine ⟨inv,?_,?_⟩
  · intro i none
    rw [List.filterMap_append]
    rcases steps i with ⟨quiet,same⟩ | ⟨_,_,role,born⟩ | ⟨w,x,own,_,there,_,_⟩
    · rw [alone.unborn i (same.symm.trans none)]
      simp [quiet]
    · rw [none] at born
      cases born
    · rw [none] at there
      cases there
  · intro i x there
    rw [List.filterMap_append]
    rcases steps i with ⟨quiet,same⟩ | ⟨quiet,before,role,born⟩ | ⟨w,y,f,before,after,moved,own⟩
    · obtain ⟨own,ran,same⟩ := alone.runs i x (same.symm.trans there)
      refine ⟨own,ran,?_⟩
      rw [same]
      simp [quiet]
    · cases Option.some.inj (born.symm.trans there)
      refine ⟨[],rfl,?_⟩
      rw [alone.unborn i before]
      simp [quiet]
    · cases Option.some.inj (after.symm.trans there)
      obtain ⟨events,ran,same⟩ := alone.runs i w before
      rw [(CallContext.stepSessions moved).1]
      refine ⟨events ++ [f],runMore ran moved,?_⟩
      rw [List.filter_append,same,own]
      cases which : ofCall i e <;> simp [which]

end

/- A call behaves as it would if it were its user's only call: whatever the other calls do
and however the closures of all of them are queued, what has become of a call is a run of
the call alone, with the same steps of its own in the same order. -/
theorem callsAlone (es : List Event) (u : User) (ran : run step .start es = some u) (i : Nat) (w : Call)
    (there : u.view i = some w) : ∃ own, run CallContext.step (.initial w.role) own = some w ∧
      own.filter (· != .execute) = es.filterMap (ofCall i) :=
  (runHistory stepAlone startAlone ran).runs i w there

/- Two calls are made, the first is destroyed at once, and the second gets a session while
the first one's closures run. -/
def twoCalls : List Event := [.create .caller,.create .caller,.app 0 .newCall,.app 1 .newCall,
  .app 0 (.invite .app none),.app 1 (.invite .app none),.control .isShutdown,.control .getNext,.app 0 (.destroy .app),
  .finish,.post,.control .isShutdown,.control .getNext,.finish,.control .isShutdown,.control .getNext,.finish,
  .app 0 .release,.control .isShutdown,.control .getNext,.dum 1 (.newSession 0 none),.finish]

theorem twoCallsAlone : ∃ u w, run step .start twoCalls = some u ∧ u.view 0 = some w ∧
    ∃ own, run CallContext.step (.initial w.role) own = some w ∧
      own.filter (· != .execute) = twoCalls.filterMap (ofCall 0) :=
  ⟨_,_,rfl,rfl,callsAlone twoCalls _ rfl 0 _ rfl⟩

end RtcCall.UserCalls
