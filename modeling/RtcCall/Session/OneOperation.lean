import RtcCall.Session.RegistrationPhase

/-! What the life of the registration says of the code: the controller waits for
an operation that will still be answered, and decides one operation at a time. -/
namespace RtcCall.OneOperation
open RportUpdate UserState UserContext RegistrationPhase StepRuns

/- An operation of this kind is queued and will act on a valid handle, or is in flight.
While a callback that has not reached the controller is running, its outcome is not
reported yet; a failure then reaches the controller whatever it waits for. -/
def Outstanding (w : World) (op : RegOp) : Prop :=
  (∃ c ∈ w.queue, c.op = op ∧ c.acts w.dum = true) ∨ (∃ x ∈ w.dum.inFlight, x.request.op = op) ∨
  op ∈ w.frame.undelivered ∨ w.frame.failing = true
instance (w op) : Decidable (Outstanding w op) := by unfold Outstanding; infer_instance

def NeverWedged (w : World) : Prop := match w.controller.state with
  | .registering => Outstanding w .addReg
  | .deregistering => Outstanding w .endReg
  | .updating => Outstanding w .updateReg
  | .deregistered | .registered => True
instance (w) : Decidable (NeverWedged w) := by unfold NeverWedged; split <;> infer_instance

theorem queuedOf {w : World} {p : Phase} {c : DumCommand} (h : Follows w p) (queued : p.queued = [c]) :
    c ∈ w.queue ∧ c.acts w.dum = true := by
  have member : c ∈ w.queue.filter (·.acts w.dum) := by rw [h.queued,queued]; exact List.mem_cons_self
  exact List.mem_filter.mp member

theorem inFlightOf {w : World} {p : Phase} {x : InFlight} (h : Follows w p) (asked : p.inFlight = [x]) :
    x ∈ w.dum.inFlight := by
  rw [h.inFlight,asked]; exact List.mem_cons_self

theorem answeringUndelivered {op : RegOp} {h : Handle} {f : Frame} {handle : Option Handle}
    (answering : Answering op h f handle) (asked : op ≠ .refresh) : op ∈ f.undelivered := by
  unfold Answering at answering
  split at answering <;> try contradiction
  all_goals simp_all [Frame.undelivered]

theorem neverWedgedOf {w : World} {p : Phase} (h : Follows w p) (free : p ≠ .stuck) : NeverWedged w := by
  have state := h.state
  have frame := h.frame
  unfold NeverWedged
  rw [state]
  cases p with
  | unbound => trivial
  | held g => trivial
  | addQueued => exact .inl ⟨_,(queuedOf h rfl).1,rfl,(queuedOf h rfl).2⟩
  | addAsked g => exact .inr (.inl ⟨_,inFlightOf h rfl,rfl⟩)
  | addAnswered g => exact .inr (.inr (.inl (answeringUndelivered frame (by decide))))
  | endQueued g => exact .inl ⟨_,(queuedOf h rfl).1,rfl,(queuedOf h rfl).2⟩
  | endAsked g => exact .inr (.inl ⟨_,inFlightOf h rfl,rfl⟩)
  | endAnswered => exact .inr (.inr (.inl (by rw [show w.frame = _ from frame]; simp [Frame.undelivered])))
  | updateQueued g contacts => exact .inl ⟨_,(queuedOf h rfl).1,rfl,(queuedOf h rfl).2⟩
  | updateAsked g => exact .inr (.inl ⟨_,inFlightOf h rfl,rfl⟩)
  | updateRemoved g => exact .inr (.inl ⟨_,inFlightOf h rfl,rfl⟩)
  | updateAnswered g => exact .inr (.inr (.inl (answeringUndelivered frame (by decide))))
  | failing s =>
    cases s with
    | deregistered => trivial
    | registered => trivial
    | _ => exact .inr (.inr (.inr frame.1))
  | stuck => contradiction

theorem stuckWedged {w : World} (h : Follows w .stuck) : ¬ NeverWedged w := by
  have state : w.controller.state = .deregistering := h.state
  have rest : Resting w.frame := h.frame
  unfold NeverWedged
  rw [state]
  intro outstanding
  rcases outstanding with ⟨c,member,_,acts⟩ | ⟨x,member,_⟩ | undelivered | failing
  · have acting : c ∈ w.queue.filter (·.acts w.dum) := List.mem_filter.mpr ⟨member,acts⟩
    simp [h.queued,Phase.queued] at acting
  · simp [h.inFlight,Phase.inFlight] at member
  · simp [restingUndelivered rest] at undelivered
  · simp [restingFailing rest] at failing

/- The DUM reports outcomes of what it was asked, and failures of its own accord. -/
def asked : Event → Bool
  | .refreshed _ _ => false
  | _ => true

def Unstuck (w : World) : Prop := ∃ p, Tracked w p ∧ p ≠ .stuck

theorem knownOf {w : World} {e : Event} (ok : asked e = true) : RefreshKnown w e := by
  cases e <;> trivial

theorem keepsUnstuck (env : Env) : Keeps (step env) (fun w e => asked e = true ∧ HeardFailure w e) Unstuck := by
  intro w e u ⟨p,tracked,free⟩ ⟨lawful,heard⟩ ok
  obtain ⟨q,next,moves⟩ := stepTracked tracked (knownOf lawful) ok
  exact ⟨q,next,moves.unstuck heard free⟩

/- A failure that reaches a Deregistering controller leaves it there for good. -/
theorem unheardWedges {env : Env} {w u : World} {e : Event} (h : Unstuck w) (unheard : ¬ HeardFailure w e)
    (ok : step env w e = some u) : ¬ NeverWedged u := by
  obtain ⟨p,tracked,_⟩ := h
  unfold HeardFailure at unheard
  split at unheard
  · rename_i frame
    simp only [step,advance,frame] at ok
    cases Option.some.inj ok
    obtain ⟨q,follows,stuck,_⟩ := failureControlLands (C := True) tracked.follows frame
    cases stuck.mp (Decidable.not_not.mp unheard)
    exact stuckWedged follows
  · exact absurd trivial unheard

theorem neverWedgedExactly (env : Env) (events : List Event) (lawful : ∀ e ∈ events, asked e = true) :
    Visits (step env) NeverWedged World.initial events ↔
      Meets (step env) HeardFailure World.initial events :=
  visitsIffMeets (keepsUnstuck env) (fun _ ⟨_,tracked,free⟩ => neverWedgedOf tracked.follows free)
    (fun _ _ _ h _ unheard ok => unheardWedges h unheard ok)
    ⟨.unbound,initialTracked,by simp⟩ (meetsOfEvents (fun e member _ => lawful e member) _)

/- Login, the registration succeeds, Logout. -/
def loginLogout : List Event :=
  [.login .user,.execute,.success ⟨0,.addReg⟩ ⟨[],none⟩,.advance,.advance,.advance,.advance,.logout .user]

theorem removedNeverWedged :
    Visits (step plainEnv) NeverWedged World.initial (loginLogout ++ [.execute,.removed ⟨0,.endReg⟩,.advance]) ↔
      Meets (step plainEnv) HeardFailure World.initial (loginLogout ++ [.execute,.removed ⟨0,.endReg⟩,.advance]) :=
  neverWedgedExactly plainEnv _ (by decide)

/- The un-registration fails; or the refresh fails before the closure that would end it. -/
theorem logoutWedges :
    ¬ Visits (step plainEnv) NeverWedged World.initial
      (loginLogout ++ [.execute,.failure ⟨0,.endReg⟩,.advance,.advance,.advance]) ∧
    ¬ Visits (step plainEnv) NeverWedged World.initial
      (loginLogout ++ [.refreshFailed 0,.advance,.advance,.advance,.execute]) := by
  decide

/-! Decisions. -/

def Orderly (w : World) : Prop := ∃ p, Tracked w p ∧ Good w p

theorem keepsOrderly (env : Env) : Keeps (step env) InOrder Orderly := by
  intro w e u ⟨p,tracked,good⟩ order ok
  have known : RefreshKnown w e := by cases e <;> first | exact order | trivial
  obtain ⟨q,next,moves⟩ := stepTracked tracked known ok
  exact ⟨q,next,moves.good order good⟩

theorem initialOrderly : Orderly World.initial :=
  ⟨.unbound,initialTracked,⟨by simp [Tidy,World.initial],by simp [OneAtATime,World.initial]⟩⟩

theorem oneOperationAtATime (env : Env) (events : List Event)
    (order : Meets (step env) InOrder World.initial events) :
    Visits (step env) OneAtATime World.initial events :=
  visitsMono (fun _ ⟨_,_,good⟩ => good.decisions) (visitsOfKeeps (keepsOrderly env) initialOrderly order)

/- A success with a contact to rewrite, from a NAT that shows another host and port. -/
def outsideResponse : Response :=
  ⟨[⟨"",⟨"sip","peer","10.0.0.2",4455⟩⟩],some [⟨"10.0.0.2",4455,some "203.0.113.7",some (some 40000)⟩]⟩

theorem updateInOrder : Visits (step plainEnv) OneAtATime World.initial
    [.login .user,.execute,.success ⟨0,.addReg⟩ outsideResponse,.advance,.advance,.advance,.advance,.execute,
      .removed ⟨0,.removeAll⟩,.advance,.logout .user,.success ⟨0,.addBinding⟩ ⟨[],none⟩,.advance,.advance] :=
  oneOperationAtATime plainEnv _ (by decide)

/- Each of the three windows. A refresh success before the update's closure has run:
Registered again, and the next rewriting decides a second update. A Login while the
closure of an update that a refresh failure cut off is still queued. A Logout while a
refresh failure is being reported. -/
theorem refreshOverlaps :
    ¬ Visits (step plainEnv) OneAtATime World.initial
      [.login .user,.execute,.success ⟨0,.addReg⟩ outsideResponse,.advance,.advance,.advance,.advance,
        .refreshed 0 outsideResponse,.advance,.advance,.advance] ∧
    ¬ Visits (step plainEnv) OneAtATime World.initial
      [.login .user,.execute,.success ⟨0,.addReg⟩ outsideResponse,.advance,.advance,.advance,.advance,
        .refreshFailed 0,.advance,.advance,.advance,.login .user] ∧
    ¬ Visits (step plainEnv) OneAtATime World.initial
      [.login .user,.execute,.success ⟨0,.addReg⟩ ⟨[],none⟩,.advance,.advance,.advance,.advance,
        .refreshFailed 0,.logout .user] := by
  decide

end RtcCall.OneOperation
