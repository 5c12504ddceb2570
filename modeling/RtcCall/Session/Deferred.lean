import RtcCall.Session.CallContext

/-! Operations on a call are closures over the handle of the moment. What a thread
issued over one session's handle is what was applied to that session and what is
still queued for it, in this order; an operation over another handle is dropped. -/
namespace RtcCall.Deferred
open CallContext StepRuns

def issuedBy (t : Thread) (w : World) : List Operation :=
  (w.log.issued.filter (·.thread == t)).map (·.op)

def appliedBy (t : Thread) (s : SessionId) (w : World) : List Operation :=
  (w.log.applied.filter (fun a => a.thread == t && a.session == s)).map (·.op)

def issuedTo (t : Thread) (s : SessionId) (w : World) : List Operation :=
  (w.log.issued.filter (fun o => o.held == some s && o.thread == t)).map (·.op)

def pendingOf (t : Thread) (s : SessionId) : Closure → List Operation
  | .operation source h op => if h = some s ∧ source = t then [op] else []
  | _ => []

def queuedBy (t : Thread) (s : SessionId) (w : World) : List Operation := w.queue.flatMap (pendingOf t s)

def Known (s : SessionId) (w : World) : Prop := ∃ x ∈ w.sessions, x.id = s

/- The state before a step: an operation is issued only while the context holds `s`. -/
def IssuedOver (s : SessionId) (w : World) : Event → Prop
  | .issue _ _ => w.h = some s
  | _ => True

theorem validKnown {s : SessionId} {w : World} {x : Session} (found : w.valid (some s) = some x) :
    Known s w ∧ x.id = s := by
  have passed := List.find?_some found
  exact ⟨⟨x,List.mem_of_find?_eq_some found,by simpa using passed⟩,by simpa using passed⟩

theorem knownValid {s : SessionId} {w : World} (known : Known s w) : ∃ x, w.valid (some s) = some x := by
  obtain ⟨x,there,same⟩ := known
  cases found : w.valid (some s) with
  | some y => exact ⟨y,rfl⟩
  | none =>
    have missed := List.find?_eq_none.mp found x there
    exact absurd same (by simpa using missed)

theorem appliedCall (t source : Thread) (s x : SessionId) (op : Operation) (calls : List SessionCall) (w : World) :
    appliedBy t s (callSession source x op calls w) =
      appliedBy t s w ++ pendingOf t s (.operation source (some x) op) := by
  simp only [appliedBy,callSession,pendingOf,List.filter_append,List.map_append,Option.some.injEq]
  by_cases named : x = s <;> by_cases mine : source = t <;> simp [named,mine]

/- A closure applies its operation when its handle is known; if not, it does nothing. -/
theorem executeApplied {c : Closure} {w u : World} (ok : execute c w = some u) (t : Thread) (s : SessionId)
    (reaches : Known s w ∨ pendingOf t s c = []) : appliedBy t s u = appliedBy t s w ++ pendingOf t s c := by
  cases c with
  | invite offer =>
    cases Option.some.inj ok
    split <;> simp [appliedBy,pendingOf,doInvite]
  | endCall h =>
    cases Option.some.inj ok
    simp [appliedBy,pendingOf,(endNowUntouched h w).2.2.2]
  | getLocalSdp => cases Option.some.inj ok; simp [appliedBy,pendingOf]
  | operation source h op =>
    rcases operationExact ok with ⟨x,calls,found,-,rfl⟩ | ⟨missing,rfl⟩
    · cases h with
      | none => cases found
      | some r => rw [appliedCall,(validKnown found).2]
    · rcases reaches with known | other
      · have away : h ≠ some s := by
          intro same
          obtain ⟨x,found⟩ := knownValid known
          rw [same,found] at missing
          cases missing
        simp [pendingOf,away]
      · rw [other,List.append_nil]

theorem issuedOver (source : Thread) (op : Operation) (w : World) (t : Thread) (s : SessionId) :
    issuedTo t s {w with log := {w.log with issued := w.log.issued ++ [⟨source,w.h,op⟩]}} =
      issuedTo t s w ++ pendingOf t s (.operation source w.h op) := by
  simp only [issuedTo,pendingOf,List.filter_append,List.map_append]
  by_cases held : w.h = some s <;> by_cases mine : source = t <;> simp [held,mine]

/- The accounts of a session hold while it is known, and before it is announced. -/
structure Ledger (w : World) : Prop where
  held : ∀ s, w.h = some s → s < w.fresh
  issued : ∀ o ∈ w.log.issued, ∀ s, o.held = some s → s < w.fresh
  deferred : ∀ s, queuedBy .dum s w = []
  balance : ∀ t s, (Known s w ∨ w.fresh ≤ s) → appliedBy t s w ++ queuedBy t s w = issuedTo t s w

theorem stepKnown {w u : World} {e : Event} (held : ∀ s, w.h = some s → s < w.fresh) (ok : step w e = some u) :
    (∀ s, (Known s u ∨ u.fresh ≤ s) → (Known s w ∨ w.fresh ≤ s)) ∧ (∀ s, u.h = some s → s < u.fresh) ∧
      w.fresh ≤ u.fresh := by
  obtain ⟨_,sessions,handle,fresh⟩ := stepSessions ok
  unfold Known
  rw [sessions,handle,fresh]
  have updated : ∀ (s r : SessionId) (f : Session → Session), (∀ x, (f x).id = x.id) →
      ((∃ x ∈ (w.updateSession r f).sessions, x.id = s) ∨ w.fresh ≤ s) →
        ((∃ x ∈ w.sessions, x.id = s) ∨ w.fresh ≤ s) := by
    intro s r f named known
    rcases known with ⟨y,member,same⟩ | later
    · obtain ⟨x,there,eq⟩ := List.mem_map.mp member
      refine .inl ⟨x,there,?_⟩
      rw [← eq] at same
      split at same
      · rw [← same,named]
      · exact same
    · exact .inr later
  cases e with
  | newSession i sdp =>
    refine ⟨?_,?_,Nat.le_succ _⟩
    · intro s known
      rcases known with ⟨x,member,same⟩ | later
      · rcases List.mem_append.mp member with old | new
        · exact .inl ⟨x,old,same⟩
        · cases List.mem_singleton.mp new
          exact .inr (Nat.le_of_eq same)
      · exact .inr (Nat.le_of_succ_le later)
    · intro s same
      cases same
      exact Nat.lt_succ_self w.fresh
  | negotiated r sdp => exact ⟨fun s => updated s r _ (fun _ => rfl),held,Nat.le_refl _⟩
  | connected r i => exact ⟨fun s => updated s r _ (fun _ => rfl),held,Nat.le_refl _⟩
  | terminated r i final => exact ⟨fun s => updated s r _ (fun _ => rfl),held,Nat.le_refl _⟩
  | forkDestroyed r => exact ⟨fun s => updated s r _ (fun _ => rfl),held,Nat.le_refl _⟩
  | destroySession r =>
    refine ⟨?_,held,Nat.le_refl _⟩
    intro s known
    rcases known with ⟨x,member,same⟩ | later
    · exact .inl ⟨x,(List.mem_filter.mp member).1,same⟩
    · exact .inr later
  | _ => exact ⟨fun _ known => known,held,Nat.le_refl _⟩

/- A step that issues nothing keeps the ledger when it keeps every balance. -/
theorem ledgerKept {w u : World} {e : Event} (h : Ledger w) (ok : step w e = some u)
    (issued : u.log.issued = w.log.issued) (deferred : ∀ s, queuedBy .dum s u = [])
    (balance : ∀ t s, (Known s w ∨ w.fresh ≤ s) →
      appliedBy t s u ++ queuedBy t s u = appliedBy t s w ++ queuedBy t s w) :
    Ledger u := by
  obtain ⟨known,held,later⟩ := stepKnown h.held ok
  refine ⟨held,?_,deferred,?_⟩
  · intro o member s named
    rw [issued] at member
    exact Nat.lt_of_lt_of_le (h.issued o member s named) later
  · intro t s there
    rw [balance t s (known s there),h.balance t s (known s there)]
    simp only [issuedTo,issued]

/- The closures that are no operation, run or queued. -/
theorem dispatchOther {t : Thread} {c : Closure} {w u : World} (other : ∀ t s, pendingOf t s c = [])
    (ok : dispatch t c w = some u) (r : Thread) (s : SessionId) :
    appliedBy r s u = appliedBy r s w ∧ queuedBy r s u = queuedBy r s w := by
  cases t with
  | dum =>
    have applied := executeApplied ok r s (.inr (other r s))
    rw [other,List.append_nil] at applied
    exact ⟨applied,by simp only [queuedBy,(executeUntouched ok).2.2]⟩
  | app =>
    cases Option.some.inj ok
    exact ⟨rfl,by simp [queuedBy,post,other]⟩

theorem destroyOther {t : Thread} {w u : World} (ok : destroy t w = some u) (r : Thread) (s : SessionId) :
    appliedBy r s u = appliedBy r s w ∧ queuedBy r s u = queuedBy r s w := by
  cases t with
  | app =>
    exact dispatchOther (t := .app) (w := {w with object := .ending}) (fun _ _ => rfl) ok r s
  | dum =>
    simp only [destroy,bind,Option.bind_eq_some_iff,pure,Option.some.injEq] at ok
    obtain ⟨v,ran,rfl⟩ := ok
    exact dispatchOther (t := .dum) (w := {w with object := .ending}) (fun _ _ => rfl) ran r s

theorem ledgerOther {w u : World} {e : Event} (h : Ledger w) (ok : step w e = some u) (kept : Untouched w u)
    (same : ∀ r s, appliedBy r s u = appliedBy r s w ∧ queuedBy r s u = queuedBy r s w) : Ledger u :=
  ledgerKept h ok kept.issued (fun s => (same .dum s).2.trans (h.deferred s))
    (fun t s _ => by rw [(same t s).1,(same t s).2])

/- The application's operation waits in the queue, over the handle it captured. -/
theorem postLedger {w : World} {op : Operation} (h : Ledger w) (r : Thread) (s : SessionId) :
    queuedBy .dum s (post (.operation .app w.h op) w) = [] ∧
    queuedBy r s (post (.operation .app w.h op) w) = queuedBy r s w ++ pendingOf r s (.operation .app w.h op) := by
  have before := h.deferred s
  simp only [queuedBy] at before
  exact ⟨by simp [queuedBy,post,pendingOf,before],by simp [queuedBy,post]⟩

/- What the DUM's thread issues over a session it knows is applied before anything else it issues. -/
theorem runLedger {w u : World} {op : Operation} (h : Ledger w) (ran : execute (.operation .dum w.h op)
      {w with log := {w.log with issued := w.log.issued ++ [⟨.dum,w.h,op⟩]}} = some u)
    (r : Thread) (s : SessionId) (there : Known s w ∨ w.fresh ≤ s) :
    appliedBy r s u ++ queuedBy r s u = issuedTo r s w ++ pendingOf r s (.operation .dum w.h op) := by
  have reaches : Known s w ∨ pendingOf r s (.operation .dum w.h op) = [] := by
    rcases there with here | unborn
    · exact .inl here
    · have away : w.h ≠ some s := fun same => absurd (h.held s same) (Nat.not_lt.mpr unborn)
      exact .inr (by simp [pendingOf,away])
  have applied := executeApplied ran r s reaches
  have queued : queuedBy r s u = queuedBy r s w := by simp only [queuedBy,(executeUntouched ran).2.2]
  rw [applied,queued,← h.balance r s there]
  cases r with
  | app => simp [appliedBy,pendingOf]
  | dum => rw [h.deferred s]; simp [appliedBy]

theorem issueLedger {w u : World} {t : Thread} {op : Operation} (h : Ledger w)
    (ok : step w (.issue t op) = some u) : Ledger u := by
  obtain ⟨known,held,later⟩ := stepKnown h.held ok
  have ran := issueRuns ok
  have kept := (dispatchUntouched ran).1
  have account : ∀ r s, issuedTo r s u = issuedTo r s w ++ pendingOf r s (.operation t w.h op) := by
    intro r s
    rw [← issuedOver]
    simp only [issuedTo,kept.issued]
  have issued : ∀ o ∈ u.log.issued, ∀ s, o.held = some s → s < u.fresh := by
    intro o member s named
    rw [kept.issued] at member
    rcases List.mem_append.mp member with old | new
    · exact Nat.lt_of_lt_of_le (h.issued o old s named) later
    · cases List.mem_singleton.mp new
      exact Nat.lt_of_lt_of_le (h.held s named) later
  cases t with
  | app =>
    cases Option.some.inj ran
    refine ⟨held,issued,fun s => (postLedger h .dum s).1,?_⟩
    intro r s there
    rw [account,← h.balance r s (known s there),List.append_assoc,← (postLedger h r s).2]
    rfl
  | dum =>
    have executed : execute (.operation .dum w.h op)
      {w with log := {w.log with issued := w.log.issued ++ [⟨.dum,w.h,op⟩]}} = some u := ran
    have queue : u.queue = w.queue := (executeUntouched executed).2.2
    refine ⟨held,issued,?_,fun r s there => (runLedger h executed r s (known s there)).trans (account r s).symm⟩
    intro s
    have before := h.deferred s
    simp only [queuedBy] at before ⊢
    rw [queue]
    exact before

theorem keepsLedger : Keeps step (fun _ _ => True) Ledger := by
  intro w e u h _ ok
  cases e with
  | invite t offer =>
    have ran := inviteRuns ok
    exact ledgerOther h ok (dispatchUntouched ran).1 (dispatchOther (fun _ _ => rfl) ran)
  | getLocalSdp t =>
    have ran := getLocalSdpRuns ok
    exact ledgerOther h ok (dispatchUntouched ran).1 (dispatchOther (fun _ _ => rfl) ran)
  | destroy t =>
    have ran := (destroyRuns ok).2
    exact ledgerOther h ok (destroyUntouched ran) (destroyOther ran)
  | issue t op => exact issueLedger h ok
  | execute =>
    obtain ⟨c,rest,queue,ran⟩ := executeRuns ok
    have kept := executeUntouched ran
    have head : ∀ t s, queuedBy t s w = pendingOf t s c ++ queuedBy t s u := by
      intro t s
      simp only [queuedBy,queue,kept.2.2,List.flatMap_cons]
    have deferred : ∀ s, queuedBy .dum s u = [] := by
      intro s
      have before := h.deferred s
      rw [head] at before
      exact (List.append_eq_nil_iff.mp before).2
    refine ledgerKept h ok kept.1.issued deferred ?_
    intro t s there
    have reaches : Known s w ∨ pendingOf t s c = [] := by
      rcases there with here | unborn
      · exact .inl here
      · have unissued : issuedTo t s w = [] := by
          simp only [issuedTo,List.map_eq_nil_iff,List.filter_eq_nil_iff,Bool.and_eq_true,beq_iff_eq,not_and]
          exact fun o member named => absurd (h.issued o member s named) (Nat.not_lt.mpr unborn)
        have empty := h.balance t s (.inr unborn)
        rw [unissued,head] at empty
        exact .inr (List.append_eq_nil_iff.mp (List.append_eq_nil_iff.mp empty).2).1
    have applied := executeApplied ran t s reaches
    rw [applied,head,List.append_assoc]
    rfl
  | terminated s i final =>
    obtain ⟨_,rfl⟩ := whenExact ok
    cases final <;> exact ledgerKept h ok rfl h.deferred (fun _ _ _ => rfl)
  | _ =>
    have ran := ok
    obtain ⟨_,rfl⟩ := whenExact ran
    exact ledgerKept h ok rfl h.deferred (fun _ _ _ => rfl)

def issuedIn (w : World) : Event → List Issued
  | .issue t op => [⟨t,w.h,op⟩]
  | _ => []

theorem stepIssued {w u : World} {e : Event} (ok : step w e = some u) :
    u.log.issued = w.log.issued ++ issuedIn w e := by
  cases e with
  | invite t offer => exact (dispatchUntouched (inviteRuns ok)).1.issued.trans (List.append_nil _).symm
  | issue t op => exact (dispatchUntouched (issueRuns ok)).1.issued
  | getLocalSdp t => exact (dispatchUntouched (getLocalSdpRuns ok)).1.issued.trans (List.append_nil _).symm
  | destroy t => exact (destroyUntouched (destroyRuns ok).2).issued.trans (List.append_nil _).symm
  | execute =>
    obtain ⟨c,rest,_,ran⟩ := executeRuns ok
    exact (executeUntouched ran).1.issued.trans (List.append_nil _).symm
  | terminated s i final =>
    obtain ⟨_,rfl⟩ := whenExact ok
    cases final <;> exact (List.append_nil _).symm
  | _ =>
    obtain ⟨_,rfl⟩ := whenExact ok
    exact (List.append_nil _).symm

/- What a thread issued is what it issued over `s`, if that is so for each thread,
exactly when everything was issued over `s`. -/
theorem allIssuedTo (s : SessionId) (w : World) :
    (∀ t, issuedTo t s w = issuedBy t w) ↔ ∀ o ∈ w.log.issued, o.held = some s := by
  constructor
  · intro same o member
    have within : o ∈ w.log.issued.filter (·.thread == o.thread) := List.mem_filter.mpr ⟨member,by simp⟩
    have length := congrArg List.length (same o.thread)
    simp only [issuedTo,issuedBy,List.length_map] at length
    rw [← List.filter_filter] at length
    have whole := List.filter_sublist.eq_of_length length
    rw [← whole] at within
    simpa using (List.mem_filter.mp within).2
  · intro all t
    unfold issuedTo issuedBy
    congr 1
    apply List.filter_congr
    intro o member
    simp [all o member]

theorem operationsAppliedExactly (role : Role) (events : List Event) (s : SessionId) (w : World)
    (ran : run step (World.initial role) events = some w) (drained : w.queue = [])
    (live : ∃ x ∈ w.sessions, x.id = s ∧ x.live = true) :
    (∀ t, appliedBy t s w = issuedBy t w) ↔ Meets step (IssuedOver s) (World.initial role) events := by
  have start : Ledger (World.initial role) := by
    constructor <;> simp [World.initial,queuedBy,appliedBy,issuedTo]
  have ledger : Ledger w := visitsLast (visitsOfKeeps keepsLedger start (meetsOfEvents (fun _ _ _ => trivial) _)) ran
  have known : Known s w := by
    obtain ⟨x,there,same,_⟩ := live
    exact ⟨x,there,same⟩
  have settled : ∀ t, appliedBy t s w = issuedTo t s w := by
    intro t
    have balance := ledger.balance t s (.inl known)
    simpa [queuedBy,drained] using balance
  have logged := meetsIffLogged (fun o : Issued => o.held = some s) (C := IssuedOver s)
    (fun _ _ _ => stepIssued) (fun w e => by cases e <;> simp [IssuedOver,issuedIn]) ran
  calc (∀ t, appliedBy t s w = issuedBy t w)
      ↔ ∀ t, issuedTo t s w = issuedBy t w := by simp only [settled]
    _ ↔ ∀ o ∈ w.log.issued, o.held = some s := allIssuedTo s w
    _ ↔ _ := by rw [logged]; simp [World.initial]

/- The application's thread declines a request of the session it was told of. -/
def requestDeclined : List Event :=
  [.newCall,.invite .dum none,.newSession 0 none,.issue .app (.rejectNIT 488),.execute]

theorem requestDeclinedApplied : ∃ w, run step (World.initial .caller) requestDeclined = some w ∧
    ∀ t, appliedBy t 0 w = issuedBy t w :=
  ⟨_,rfl,(operationsAppliedExactly .caller requestDeclined 0 _ rfl rfl ⟨_,List.mem_singleton_self _,rfl,rfl⟩).mpr
    ⟨trivial,trivial,trivial,rfl,trivial,trivial⟩⟩

/- A call declined from OnCallee is not declined: its session is announced later. -/
def rejectedOnCallee : List Event :=
  [.createAppDialogSet none,.issue .dum (.reject 488),.dialogSetCreated,.newSession 0 none]

theorem rejectDropped : ¬ ∀ (role : Role) (events : List Event) (s : SessionId) (w : World),
    run step (World.initial role) events = some w → w.queue = [] →
    (∃ x ∈ w.sessions, x.id = s ∧ x.live = true) → ∀ t, appliedBy t s w = issuedBy t w := by
  intro all
  have applied := all .callee rejectedOnCallee 0 _ rfl rfl ⟨_,List.mem_singleton_self _,rfl,rfl⟩ .dum
  cases applied

end RtcCall.Deferred
