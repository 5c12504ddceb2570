import RtcCall.Session.UserContext

/-! The life of the one registration, as the controller means it: at each time at
most one operation is queued, asked of the DUM, or answered and not yet heard of.
`Follows` ties a phase to the queue, the DUM and the running callback; commands
that captured an invalid handle stay in the queue and count for nothing. -/
namespace RtcCall.RegistrationPhase
open RportUpdate UserState UserContext StepRuns

inductive Phase where
  | unbound
  | addQueued
  | addAsked (h : Handle)
  | addAnswered (h : Handle)
  | held (h : Handle)
  | endQueued (h : Handle)
  | endAsked (h : Handle)
  | endAnswered
  | updateQueued (h : Handle) (contacts : UpdateContacts)
  | updateAsked (h : Handle)
  | updateRemoved (h : Handle)
  | updateAnswered (h : Handle)
  | failing (s : SipUserState)
  | stuck
  deriving DecidableEq, Repr

namespace Phase

def state : Phase → SipUserState
  | .unbound => .deregistered
  | .addQueued | .addAsked _ | .addAnswered _ => .registering
  | .held _ => .registered
  | .endQueued _ | .endAsked _ | .endAnswered | .stuck => .deregistering
  | .updateQueued _ _ | .updateAsked _ | .updateRemoved _ | .updateAnswered _ => .updating
  | .failing s => s

def live : Phase → List Handle
  | .unbound | .addQueued | .endAnswered | .failing _ | .stuck => []
  | .addAsked h | .addAnswered h | .held h | .endQueued h | .endAsked h | .updateQueued h _
  | .updateAsked h | .updateRemoved h | .updateAnswered h => [h]

def inFlight : Phase → List InFlight
  | .addAsked h => [⟨h,.addReg⟩]
  | .endAsked h => [⟨h,.endReg⟩]
  | .updateAsked h => [⟨h,.removeAll⟩]
  | .updateRemoved h => [⟨h,.addBinding⟩]
  | _ => []

def queued : Phase → List DumCommand
  | .addQueued => [.addReg]
  | .endQueued h => [.endReg (some h)]
  | .updateQueued h contacts => [.updateReg (some h) contacts]
  | _ => []

/- The handle the context must hold, once the registration has been announced to it. -/
def bound : Phase → Option Handle
  | .held h | .endQueued h | .endAsked h | .updateQueued h _ | .updateAsked h | .updateRemoved h
  | .updateAnswered h => some h
  | _ => none

def bindingHeld : Phase → Bool
  | .addAnswered _ | .held _ | .endQueued _ | .endAsked _ | .updateQueued _ _ | .updateAsked _
  | .updateAnswered _ => true
  | _ => false

end Phase

def Resting (f : Frame) : Prop := match f with
  | .idle | .successRewrite _ _ | .successNotify _ => True
  | _ => False

def Refreshing (h : Handle) (f : Frame) : Prop := match f with
  | .successAssign .refresh g _ => g = h
  | .successControl .refresh _ => True
  | _ => False

def Answering (op : RegOp) (h : Handle) (f : Frame) (handle : Option Handle) : Prop := match f with
  | .successAssign o g _ => o = op ∧ g = h
  | .successControl o _ => o = op ∧ handle = some h
  | _ => False

/- Where the callback of the DUM thread may stand in a phase. -/
def FrameOf (p : Phase) (f : Frame) (handle : Option Handle) : Prop := match p with
  | .addAnswered h => Answering .addReg h f handle
  | .updateAnswered h => Answering .updateReg h f handle
  | .held h | .endQueued h | .endAsked h => Resting f ∨ Refreshing h f
  | .endAnswered => f = .removedControl true
  | .updateRemoved _ => Resting f ∨ f = .removedControl false
  | .failing s => f.failing = true ∧ s ≠ .deregistered
  | .unbound | .addQueued | .addAsked _ | .updateQueued _ _ | .updateAsked _ | .stuck => Resting f

structure Follows (w : World) (p : Phase) : Prop where
  state : w.controller.state = p.state
  live : w.dum.live = p.live
  inFlight : w.dum.inFlight = p.inFlight
  queued : w.queue.filter (·.acts w.dum) = p.queued
  frame : FrameOf p w.frame w.handle
  bound : ∀ h, p.bound = some h → w.handle = some h
  held : w.history.held = p.bindingHeld

/-! Handles are never reused, so a dead command stays dead. -/

def captured : DumCommand → Option Handle
  | .addReg => none
  | .endReg h | .updateReg h _ => h

def frameHandle : Frame → Option Handle
  | .successAssign _ h _ | .failureAssign _ h => some h
  | _ => none

structure Fresh (w : World) : Prop where
  live : ∀ h ∈ w.dum.live, h < w.dum.fresh
  queue : ∀ c ∈ w.queue, ∀ h, captured c = some h → h < w.dum.fresh
  handle : ∀ h, w.handle = some h → h < w.dum.fresh
  frame : ∀ h, frameHandle w.frame = some h → h < w.dum.fresh

theorem actsIff {d : Dum} {c : DumCommand} :
    c.acts d = true ↔ c = .addReg ∨ ∃ h, captured c = some h ∧ h ∈ d.live := by
  cases c with
  | addReg => simp [DumCommand.acts]
  | endReg h => cases h <;> simp [DumCommand.acts,captured,Dum.isValid]
  | updateReg h contacts => cases h <;> simp [DumCommand.acts,captured,Dum.isValid]

theorem deadExecutes {d : Dum} {c : DumCommand} (dead : c.acts d = false) : c.execute d = d := by
  cases c with
  | addReg => simp [DumCommand.acts] at dead
  | endReg h => cases h <;> simp_all [DumCommand.acts,DumCommand.execute]
  | updateReg h contacts => cases h <;> simp_all [DumCommand.acts,DumCommand.execute]

theorem actingCongr {d e : Dum} {queue : List DumCommand} (same : e.live = d.live) :
    queue.filter (·.acts e) = queue.filter (·.acts d) := by
  refine List.filter_congr (fun c _ => ?_)
  rw [Bool.eq_iff_iff,actsIff,actsIff,same]

/- A new registration revives nothing that was queued before it. -/
theorem actingFresh {d e : Dum} {queue : List DumCommand} (none : d.live = []) (new : e.live = [d.fresh])
    (old : ∀ c ∈ queue, ∀ h, captured c = some h → h < d.fresh) :
    queue.filter (·.acts e) = queue.filter (·.acts d) := by
  refine List.filter_congr (fun c member => ?_)
  rw [Bool.eq_iff_iff,actsIff,actsIff,none,new]
  refine ⟨fun h => ?_,fun h => ?_⟩
  · rcases h with add | ⟨h,hc,hl⟩
    · exact .inl add
    · exact absurd (List.mem_singleton.mp hl) (Nat.ne_of_lt (old c member h hc))
  · rcases h with add | ⟨h,_,hl⟩
    · exact .inl add
    · simp at hl

/- When the registration is dropped, only queued additions still act. -/
theorem actingDropped {d e : Dum} {queue : List DumCommand} (none : e.live = []) :
    queue.filter (·.acts e) = (queue.filter (·.acts d)).filter (· == .addReg) := by
  rw [List.filter_filter]
  refine List.filter_congr (fun c _ => ?_)
  rw [Bool.eq_iff_iff]
  simp only [Bool.and_eq_true,actsIff,none,beq_iff_eq]
  refine ⟨fun h => ?_,fun h => .inl h.1⟩
  rcases h with add | ⟨_,_,hl⟩
  · exact ⟨add,.inl add⟩
  · simp at hl

theorem executeLive (d : Dum) (c : DumCommand) :
    ((c.execute d).live = d.live ∧ (c.execute d).fresh = d.fresh) ∨
    ((c.execute d).live = d.fresh :: d.live ∧ (c.execute d).fresh = d.fresh+1) := by
  cases c with
  | addReg => exact .inr ⟨rfl,rfl⟩
  | endReg h =>
    cases h with
    | none => exact .inl ⟨rfl,rfl⟩
    | some h => simp only [DumCommand.execute]; split <;> exact .inl ⟨rfl,rfl⟩
  | updateReg h contacts =>
    cases h with
    | none => exact .inl ⟨rfl,rfl⟩
    | some h => simp only [DumCommand.execute]; split <;> exact .inl ⟨rfl,rfl⟩

theorem freshExecute {w : World} (f : Fresh w) (c : DumCommand) :
    Fresh {w with dum := c.execute w.dum} := by
  have up : w.dum.fresh ≤ (c.execute w.dum).fresh := by
    rcases executeLive w.dum c with ⟨_,same⟩ | ⟨_,next⟩
    · exact Nat.le_of_eq same.symm
    · rw [next]; exact Nat.le_succ _
  refine ⟨fun h member => ?_,fun c member h hc => Nat.lt_of_lt_of_le (f.queue c member h hc) up,
    fun h hh => Nat.lt_of_lt_of_le (f.handle h hh) up,fun h hf => Nat.lt_of_lt_of_le (f.frame h hf) up⟩
  change h ∈ (c.execute w.dum).live at member
  change h < (c.execute w.dum).fresh
  rcases executeLive w.dum c with ⟨live,same⟩ | ⟨live,next⟩
  · rw [live] at member; rw [same]; exact f.live h member
  · rw [live] at member
    rw [next]
    rcases List.mem_cons.mp member with rfl | old
    · exact Nat.lt_succ_self _
    · exact Nat.lt_succ_of_lt (f.live h old)

theorem freshPost {w : World} (f : Fresh w) (c : DumCommand)
    (old : ∀ h, captured c = some h → h < w.dum.fresh) : Fresh (post c w) := by
  refine ⟨f.live,fun d member h hc => ?_,f.handle,f.frame⟩
  rcases List.mem_append.mp member with before | new
  · exact f.queue d before h hc
  · cases List.mem_singleton.mp new
    exact old h hc

theorem freshSend {w : World} (f : Fresh w) (t : Thread) (msg : RegMsg) : Fresh (sendRegMsg t w msg) := by
  have decided : ∀ op, Fresh (w.decide op) := fun op => ⟨f.live,f.queue,f.handle,f.frame⟩
  cases msg with
  | addReg =>
    cases t with
    | user => exact freshPost (decided _) _ (by simp [captured])
    | dum => exact freshExecute (decided _) _
  | endReg =>
    cases t with
    | user => exact freshPost (decided _) _ f.handle
    | dum => exact freshExecute (decided _) _
  | updateReg contacts => exact freshPost (decided _) _ f.handle

theorem freshLocked {w : World} (f : Fresh w) (t : Thread) (g : Locked → Locked) : Fresh (locked t g w) := by
  have sends : ∀ (msgs : List RegMsg) (v : World), Fresh v → Fresh (msgs.foldl (sendRegMsg t) v) := by
    intro msgs
    induction msgs with
    | nil => exact fun v h => h
    | cons m rest ih => exact fun v h => ih _ (freshSend h t m)
  exact sends _ _ ⟨f.live,f.queue,f.handle,f.frame⟩

theorem freshRewrite (env : Env) {w : World} (f : Fresh w) (r : Response) (done : Bool) :
    Fresh (rewriteContacts env r done w).2 := by
  rcases rewriteFrom env r done w with ⟨_,_,contacts,result⟩ | ⟨_,result⟩
  · rw [result]
    have g := freshLocked f .dum (updateReg contacts)
    exact ⟨g.live,g.queue,g.handle,g.frame⟩
  · rw [result]; exact f

theorem advanceFresh {env : Env} {w u : World} (f : Fresh w) (ok : advance env w = some u) : Fresh u := by
  have idle : Fresh {w with frame := .idle} := ⟨f.live,f.queue,f.handle,by simp [frameHandle]⟩
  unfold advance at ok
  split at ok <;> try contradiction
  all_goals cases Option.some.inj ok
  · rename_i frame
    exact ⟨f.live,f.queue,fun h hh => f.frame h (by rw [frame]; exact hh),by simp [frameHandle]⟩
  · have g := freshLocked idle .dum (fun c => (onRegSuccess c).2)
    exact ⟨g.live,g.queue,g.handle,by simp [frameHandle]⟩
  · have g := freshRewrite env idle ‹_› ‹_›
    exact ⟨g.live,g.queue,g.handle,by simp [frameHandle]⟩
  · unfold notifyDone; split <;> exact ⟨f.live,f.queue,f.handle,by simp [frameHandle,notify]⟩
  · exact freshLocked idle .dum onRegRemoved
  · rename_i frame
    exact ⟨f.live,f.queue,fun h hh => f.frame h (by rw [frame]; exact hh),by simp [frameHandle]⟩
  · exact ⟨f.live,f.queue,f.handle,by simp [frameHandle]⟩
  · exact freshLocked idle .dum onRegFailure

/-! Decisions. Outside the phases in which a failure has cut an operation off,
the queue holds no dead command. -/

def DecisionOk (d : Decision) : Prop :=
  d.pending = [] ∧ (d.op = .addReg → d.held = false) ∧ (d.op ≠ .addReg → d.held = true)
instance (d) : Decidable (DecisionOk d) := by unfold DecisionOk; infer_instance

def OneAtATime (w : World) : Prop := ∀ d ∈ w.history.decisions, DecisionOk d
instance (w) : Decidable (OneAtATime w) := by unfold OneAtATime; infer_instance

def Tidy (w : World) (p : Phase) : Prop := match p with
  | .unbound => ∀ c ∈ w.queue, c.op = .updateReg
  | .failing s => s ≠ .deregistering → ∀ c ∈ w.queue, c.op = .updateReg
  | .stuck => True
  | _ => w.queue = p.queued

structure Good (w : World) (p : Phase) : Prop where
  tidy : Tidy w p
  decisions : OneAtATime w

/- A step from `p` to `q`, with what is kept only under the condition `C` on the step. -/
structure Lands (C : Prop) (w u : World) (p q : Phase) : Prop where
  follows : Follows u q
  unstuck : p ≠ .stuck → q ≠ .stuck
  good : C → Good w p → Good u q

theorem oneMore {w u : World} {d : Decision} (before : OneAtATime w) (ok : DecisionOk d)
    (more : u.history.decisions = w.history.decisions ++ [d]) : OneAtATime u := by
  intro x member
  rw [more] at member
  rcases List.mem_append.mp member with old | new
  · exact before x old
  · cases List.mem_singleton.mp new; exact ok

/- The step leaves the phase, the queue and the decisions alone. -/
theorem sameLands {C : Prop} {w u : World} {p : Phase} (h : Follows w p)
    (state : u.controller.state = w.controller.state) (live : u.dum.live = w.dum.live)
    (inFlight : u.dum.inFlight = w.dum.inFlight) (queue : u.queue = w.queue)
    (frame : FrameOf p u.frame u.handle) (bound : ∀ h, p.bound = some h → u.handle = some h)
    (held : u.history.held = w.history.held) (decisions : u.history.decisions = w.history.decisions) :
    Lands C w u p p := by
  refine ⟨⟨state.trans h.state,live.trans h.live,inFlight.trans h.inFlight,?_,frame,bound,held.trans h.held⟩,
    id,fun _ good => ⟨?_,?_⟩⟩
  · rw [queue,actingCongr live]; exact h.queued
  · have tidy := good.tidy
    unfold Tidy at tidy ⊢
    rw [queue]; exact tidy
  · intro d member
    rw [decisions] at member
    exact good.decisions d member

/- No refresh success for an Updating controller, which would take it for the update's;
no Login while the closure of an update that a failure cut off is still queued; no
Logout between a failure's report and OnRegFailure in the Registered state. -/
def InOrder (w : World) : Event → Prop
  | .refreshed _ _ => w.controller.state ≠ .updating
  | .login _ => w.controller.state = .deregistered → ∀ c ∈ w.queue, c.op ≠ .updateReg
  | .logout _ => w.frame.failing = true → w.controller.state ≠ .registered
  | _ => True
instance (w : World) : (e : Event) → Decidable (InOrder w e)
  | .refreshed _ _ => instDecidableNot
  | .login _ => @instDecidableForall _ _ _ (List.decidableBAll _ _)
  | .logout _ => instDecidableForall
  | .execute | .advance | .success _ _ | .removed _ | .failure _ | .refreshFailed _ | .requestRetry _ => .isTrue trivial

theorem restingUndelivered {f : Frame} (h : Resting f) : f.undelivered = [] := by
  cases f <;> simp_all [Resting,Frame.undelivered]

theorem restingFailing {f : Frame} (h : Resting f) : f.failing = false := by
  cases f <;> simp_all [Resting,Frame.failing]

theorem nothingPending {w : World} (queue : w.queue = []) (inFlight : w.dum.inFlight = [])
    (frame : w.frame.undelivered = []) : w.pending = [] := by
  simp [World.pending,queue,inFlight,frame]

theorem unboundOf {w : World} {p : Phase} (h : Follows w p) (state : w.controller.state = .deregistered) :
    p = .unbound := by
  have same := h.state.symm.trans state
  have frame := h.frame
  cases p <;> simp_all [Phase.state,FrameOf]

/- The DUM thread adds a registration where none is known. -/
theorem addAskedFollows {w : World} (fresh : Fresh w) (live : w.dum.live = []) (inFlight : w.dum.inFlight = [])
    (queued : w.queue.filter (·.acts w.dum) = []) (rest : Resting w.frame) (held : w.history.held = false) :
    Follows (sendAddRegMsg .dum {w with controller := ⟨.registering,true⟩}) (.addAsked w.dum.fresh) := by
  have made : (sendAddRegMsg .dum {w with controller := ⟨.registering,true⟩}).dum = w.dum.makeRegistration := rfl
  refine ⟨rfl,?_,?_,?_,rest,by simp [Phase.bound],held⟩
  · rw [made]; simp [Dum.makeRegistration,live,Phase.live]
  · rw [made]; simp [Dum.makeRegistration,inFlight,Phase.inFlight]
  · exact (actingFresh live (by rw [made]; simp [Dum.makeRegistration,live]) fresh.queue).trans queued

theorem loginLands {w : World} {p : Phase} (h : Follows w p) (fresh : Fresh w) (t : Thread) :
    ∃ q, Lands (InOrder w (.login t)) w (login t w) p q := by
  by_cases state : w.controller.state = .deregistered
  · cases unboundOf h state
    have inFlight : w.dum.inFlight = [] := h.inFlight
    have live : w.dum.live = [] := h.live
    have rest : Resting w.frame := h.frame
    have first : InOrder w (.login t) → Good w .unbound → w.queue = [] := by
      intro order good
      cases queue : w.queue with
      | nil => rfl
      | cons c cs =>
        have member : c ∈ w.queue := by rw [queue]; exact List.mem_cons_self
        exact absurd (good.tidy c member) (order state c member)
    have decision : InOrder w (.login t) → Good w .unbound → DecisionOk ⟨.addReg,w.pending,w.history.held⟩ :=
      fun order good => ⟨nothingPending (first order good) inFlight (restingUndelivered rest),
        fun _ => h.held,fun other => absurd rfl other⟩
    cases t with
    | user =>
      refine ⟨.addQueued,?_,by simp,fun order good => ⟨?_,?_⟩⟩
      · simp only [login,lockedRegister,if_pos state]
        refine ⟨rfl,live,inFlight,?_,rest,by simp [Phase.bound],h.held⟩
        have queued : w.queue.filter (·.acts w.dum) = [] := h.queued
        simp only [sendAddRegMsg,dispatch,post,World.decide,List.filter_append,queued]
        rfl
      · simp [login,lockedRegister,state,sendAddRegMsg,dispatch,post,World.decide,Tidy,first order good,Phase.queued]
      · refine oneMore good.decisions (decision order good) ?_
        simp only [login,lockedRegister,if_pos state]
        rfl
    | dum =>
      refine ⟨.addAsked w.dum.fresh,?_,by simp,fun order good => ⟨?_,?_⟩⟩
      · simp only [login,lockedRegister,if_pos state]
        have f := addAskedFollows fresh live inFlight h.queued rest h.held
        exact ⟨f.state,f.live,f.inFlight,f.queued,f.frame,f.bound,f.held⟩
      · simp [login,lockedRegister,state,sendAddRegMsg,dispatch,World.decide,Tidy,first order good,Phase.queued]
      · refine oneMore good.decisions (decision order good) ?_
        simp only [login,lockedRegister,if_pos state]
        rfl
  · refine ⟨p,?_⟩
    simp only [login,lockedRegister,if_neg state]
    exact sameLands h rfl rfl rfl rfl h.frame h.bound rfl rfl

theorem boundOrFailing {w : World} {p : Phase} (h : Follows w p) (state : w.controller.state = .registered) :
    (∃ g, p = .held g) ∨ p = .failing .registered := by
  have same := h.state.symm.trans state
  cases p <;> simp_all [Phase.state]

theorem actsOfLive {d : Dum} {h : Handle} (live : d.live = [h]) : d.isValid (some h) = true := by
  simp [Dum.isValid,live]

/- The decision of SendEndRegMsg for a held binding, by either thread. -/
theorem endLands {C : Prop} {w : World} {g : Handle} (h : Follows w (.held g)) (t : Thread)
    (rest : Resting w.frame ∨ Refreshing g w.frame) (undelivered : w.frame.undelivered = []) :
    ∃ q, Lands C w (sendEndRegMsg t {w with controller := ⟨.deregistering,false⟩}) (.held g) q := by
  have inFlight : w.dum.inFlight = [] := h.inFlight
  have live : w.dum.live = [g] := h.live
  have handle : w.handle = some g := h.bound g rfl
  have queued : w.queue.filter (·.acts w.dum) = [] := h.queued
  have decision : Good w (.held g) → DecisionOk ⟨.endReg,w.pending,w.history.held⟩ :=
    fun good => ⟨nothingPending good.tidy inFlight undelivered,fun add => by simp at add,fun _ => h.held⟩
  cases t with
  | user =>
    refine ⟨.endQueued g,?_,by simp,fun _ good => ⟨?_,?_⟩⟩
    · refine ⟨rfl,live,inFlight,?_,rest,fun _ same => handle.trans same,h.held⟩
      simp only [sendEndRegMsg,dispatch,post,World.decide,List.filter_append,queued,handle]
      simp [DumCommand.acts,actsOfLive live,Phase.queued]
    · have tidy : w.queue = [] := good.tidy
      simp [sendEndRegMsg,dispatch,post,World.decide,Tidy,tidy,handle,Phase.queued]
    · exact oneMore good.decisions (decision good) rfl
  | dum =>
    refine ⟨.endAsked g,?_,by simp,fun _ good => ⟨?_,?_⟩⟩
    · have asked : (sendEndRegMsg .dum {w with controller := ⟨.deregistering,false⟩}).dum =
          w.dum.ask g .endReg := by
        simp [sendEndRegMsg,dispatch,World.decide,DumCommand.execute,handle,actsOfLive live]
      refine ⟨rfl,?_,?_,?_,rest,fun _ same => handle.trans same,h.held⟩
      · rw [asked]; exact live
      · rw [asked]; simp [Dum.ask,inFlight,Phase.inFlight]
      · exact (actingCongr (by rw [asked]; rfl)).trans queued
    · exact good.tidy
    · exact oneMore good.decisions (decision good) rfl

theorem refreshingUndelivered {h : Handle} {f : Frame} (r : Refreshing h f) : f.undelivered = [] := by
  unfold Refreshing at r
  split at r <;> simp_all [Frame.undelivered]

theorem deadAsks {w : World} (live : w.dum.live = []) (h : Option Handle) :
    (DumCommand.endReg h).execute w.dum = w.dum := by
  refine deadExecutes ?_
  cases h <;> simp [DumCommand.acts,Dum.isValid,live]

theorem logoutLands {w : World} {p : Phase} (h : Follows w p) (t : Thread) :
    ∃ q, Lands (InOrder w (.logout t)) w (logout t w) p q := by
  by_cases state : w.controller.state = .registered
  · rcases boundOrFailing h state with ⟨g,rfl⟩ | rfl
    · have frame : Resting w.frame ∨ Refreshing g w.frame := h.frame
      have undelivered : w.frame.undelivered = [] := by
        rcases frame with rest | refresh
        · exact restingUndelivered rest
        · exact refreshingUndelivered refresh
      obtain ⟨q,lands⟩ := endLands (C := InOrder w (.logout t)) h t frame undelivered
      refine ⟨q,?_,lands.unstuck,fun order good => ?_⟩
      · simp only [logout,lockedDeregister,if_pos state]
        have f := lands.follows
        exact ⟨f.state,f.live,f.inFlight,f.queued,f.frame,f.bound,f.held⟩
      · simp only [logout,lockedDeregister,if_pos state]
        have g := lands.good order good
        exact ⟨g.tidy,g.decisions⟩
    · have frame : w.frame.failing = true ∧ _ := h.frame
      have live : w.dum.live = [] := h.live
      have queued : w.queue.filter (·.acts w.dum) = [] := h.queued
      refine ⟨.failing .deregistering,?_,by simp,fun order _ => absurd state (order frame.1)⟩
      simp only [logout,lockedDeregister,if_pos state]
      cases t with
      | user =>
        refine ⟨rfl,live,h.inFlight,?_,⟨frame.1,by decide⟩,by simp [Phase.bound],h.held⟩
        simp only [sendEndRegMsg,dispatch,post,World.decide,List.filter_append,queued]
        cases w.handle <;> simp [DumCommand.acts,Dum.isValid,live,Phase.queued]
      | dum =>
        have same : (sendEndRegMsg .dum {w with controller := ⟨.deregistering,false⟩}).dum = w.dum :=
          deadAsks live w.handle
        refine ⟨rfl,?_,?_,?_,⟨frame.1,by decide⟩,by simp [Phase.bound],h.held⟩
        · rw [same]; exact live
        · rw [same]; exact h.inFlight
        · rw [same]; exact queued
  · refine ⟨p,?_⟩
    simp only [logout,lockedDeregister,if_neg state]
    exact sameLands h rfl rfl rfl rfl h.frame h.bound rfl rfl

/- The DUM takes a command out of its queue. -/
theorem drained {w : World} {c d : DumCommand} {rest : List DumCommand} (queue : w.queue = c::rest)
    (single : w.queue = [d]) : rest = [] := by
  rw [queue] at single
  exact (List.cons.inj single).2

/- A closure whose handle is invalid does nothing. -/
theorem deadLands {C : Prop} {w : World} {p : Phase} {c : DumCommand} {rest : List DumCommand} (h : Follows w p)
    (queue : w.queue = c::rest) (acts : c.acts w.dum = false) : Lands C w {w with queue := rest} p p := by
  have queued := h.queued
  rw [queue] at queued
  simp only [List.filter_cons,acts,Bool.false_eq_true,if_false] at queued
  refine ⟨⟨h.state,h.live,h.inFlight,queued,h.frame,h.bound,h.held⟩,id,fun _ good => ⟨?_,good.decisions⟩⟩
  have tidy := good.tidy
  -- In the other phases the closure at the head is one that acts.
  have dead : w.queue = p.queued → False := by
    intro all
    have member : c ∈ w.queue.filter (·.acts w.dum) := by rw [h.queued,← all,queue]; exact List.mem_cons_self
    simp [acts] at member
  cases p with
  | unbound => exact fun d member => tidy d (by rw [queue]; exact List.mem_cons_of_mem c member)
  | failing s => exact fun state d member => tidy state d (by rw [queue]; exact List.mem_cons_of_mem c member)
  | stuck => trivial
  | _ => exact (dead tidy).elim

theorem executeLands {C : Prop} {w : World} {p : Phase} {c : DumCommand} {rest : List DumCommand}
    (h : Follows w p) (fresh : Fresh w) (idle : w.frame = .idle) (queue : w.queue = c::rest) :
    ∃ q, Lands C w {w with queue := rest, dum := c.execute w.dum} p q := by
  cases acts : c.acts w.dum with
  | false =>
    rw [deadExecutes acts]
    exact ⟨p,deadLands h queue acts⟩
  | true =>
    have queued := h.queued
    rw [queue] at queued
    simp only [List.filter_cons,acts,if_true] at queued
    have live := h.live
    have inFlight := h.inFlight
    have resting : Resting w.frame := by rw [idle]; trivial
    cases p with
    | addQueued =>
      obtain ⟨rfl,none⟩ := List.cons.inj queued
      refine ⟨.addAsked w.dum.fresh,⟨h.state,?_,?_,?_,resting,by simp [Phase.bound],h.held⟩,by simp,
        fun _ good => ⟨drained queue good.tidy,good.decisions⟩⟩
      · simp [DumCommand.execute,Dum.makeRegistration,live,Phase.live]
      · simp [DumCommand.execute,Dum.makeRegistration,inFlight,Phase.inFlight]
      · refine (actingFresh live (by simp [DumCommand.execute,Dum.makeRegistration,live,Phase.live]) ?_).trans none
        exact fun d member => fresh.queue d (by rw [queue]; exact List.mem_cons_of_mem _ member)
    | endQueued g =>
      obtain ⟨rfl,none⟩ := List.cons.inj queued
      have asked : (DumCommand.endReg (some g)).execute w.dum = w.dum.ask g .endReg := by
        simp [DumCommand.execute,actsOfLive live]
      rw [asked]
      refine ⟨.endAsked g,⟨h.state,live,?_,none,.inl resting,h.bound,h.held⟩,by simp,
        fun _ good => ⟨drained queue good.tidy,good.decisions⟩⟩
      simp [Dum.ask,inFlight,Phase.inFlight]
    | updateQueued g contacts =>
      obtain ⟨rfl,none⟩ := List.cons.inj queued
      have asked : (DumCommand.updateReg (some g) contacts).execute w.dum =
          (w.dum.ask g .removeAll).call g (updateCalls contacts) := by
        simp [DumCommand.execute,actsOfLive live]
      rw [asked]
      refine ⟨.updateAsked g,⟨h.state,live,?_,none,resting,h.bound,h.held⟩,by simp,
        fun _ good => ⟨drained queue good.tidy,good.decisions⟩⟩
      simp [Dum.ask,Dum.call,inFlight,Phase.inFlight]
    | _ => simp [Phase.queued] at queued

theorem successLands {C : Prop} {w : World} {p : Phase} {x : InFlight} (h : Follows w p)
    (member : x ∈ w.dum.inFlight)
    (answered : x.request = .addReg ∨ x.request = .addBinding) (r : Response) :
    ∃ q, Lands C w (reportSuccess x.request.op x.handle r (w.dum.resolve x) w) p q := by
  have inFlight := h.inFlight
  rw [inFlight] at member
  cases p with
  | addAsked g =>
    cases List.mem_singleton.mp member
    have none : (w.dum.resolve ⟨g,.addReg⟩).inFlight = [] := by simp [Dum.resolve,inFlight,Phase.inFlight]
    exact ⟨.addAnswered g,⟨h.state,h.live,none,h.queued,⟨rfl,rfl⟩,by simp [Phase.bound],rfl⟩,by simp,
      fun _ good => ⟨good.tidy,good.decisions⟩⟩
  | updateRemoved g =>
    cases List.mem_singleton.mp member
    have none : (w.dum.resolve ⟨g,.addBinding⟩).inFlight = [] := by simp [Dum.resolve,inFlight,Phase.inFlight]
    exact ⟨.updateAnswered g,⟨h.state,h.live,none,h.queued,⟨rfl,rfl⟩,h.bound,rfl⟩,by simp,
      fun _ good => ⟨good.tidy,good.decisions⟩⟩
  | endAsked g => cases List.mem_singleton.mp member; simp at answered
  | updateAsked g => cases List.mem_singleton.mp member; simp at answered
  | _ => simp [Phase.inFlight] at member

theorem removedLands {C : Prop} {w : World} {p : Phase} {x : InFlight} (h : Follows w p)
    (member : x ∈ w.dum.inFlight) :
    (x.request = .endReg → ∃ q, Lands C w (reportRemoved true (w.dum.drop x.handle) w) p q) ∧
    (x.request = .removeAll →
      ∃ q, Lands C w (reportRemoved false ((w.dum.resolve x).ask x.handle .addBinding) w) p q) := by
  have inFlight := h.inFlight
  have live := h.live
  rw [inFlight] at member
  cases p with
  | endAsked g =>
    cases List.mem_singleton.mp member
    have noLive : (w.dum.drop g).live = [] := by simp [Dum.drop,live,Phase.live]
    have none : (w.dum.drop g).inFlight = [] := by simp [Dum.drop,inFlight,Phase.inFlight]
    have queued : w.queue.filter (·.acts (w.dum.drop g)) = [] := by
      rw [actingDropped noLive,h.queued]; rfl
    exact ⟨fun _ => ⟨.endAnswered,⟨h.state,noLive,none,queued,rfl,by simp [Phase.bound],rfl⟩,by simp,
      fun _ good => ⟨good.tidy,good.decisions⟩⟩,fun other => by simp at other⟩
  | updateAsked g =>
    cases List.mem_singleton.mp member
    have asked : ((w.dum.resolve ⟨g,.removeAll⟩).ask g .addBinding).inFlight = [⟨g,.addBinding⟩] := by
      simp [Dum.resolve,Dum.ask,inFlight,Phase.inFlight]
    exact ⟨fun other => by simp at other,fun _ => ⟨.updateRemoved g,⟨h.state,live,asked,h.queued,.inr rfl,h.bound,rfl⟩,
      by simp,fun _ good => ⟨good.tidy,good.decisions⟩⟩⟩
  | addAsked g => cases List.mem_singleton.mp member; simp
  | updateRemoved g => cases List.mem_singleton.mp member; simp
  | _ => simp [Phase.inFlight] at member

/- A failure ends the registration, whatever was queued or asked for it. -/
theorem failureLands {C : Prop} {w : World} {p : Phase} {g : Handle} (h : Follows w p)
    (live : p.live = [g]) (op : RegOp) : ∃ q, Lands C w (reportFailure op g w) p q := by
  have noLive : (w.dum.drop g).live = [] := by simp [Dum.drop,h.live,live]
  have none : (w.dum.drop g).inFlight = [] := by
    have inFlight := h.inFlight
    cases p <;> simp_all [Dum.drop,Phase.inFlight,Phase.live]
  have queued : w.queue.filter (·.acts (w.dum.drop g)) = [] := by
    rw [actingDropped noLive,h.queued]
    cases p <;> simp_all [Phase.queued,Phase.live]
  have started : p.state ≠ .deregistered := by cases p <;> simp_all [Phase.state,Phase.live]
  refine ⟨.failing p.state,⟨h.state,noLive,none,queued,⟨rfl,started⟩,by simp [Phase.bound],rfl⟩,by simp,
    fun _ good => ⟨fun state => ?_,good.decisions⟩⟩
  have tidy := good.tidy
  change ∀ c ∈ w.queue, c.op = .updateReg
  cases p <;> simp_all [Tidy,Phase.queued,Phase.live,Phase.state,DumCommand.op]

theorem refreshedLands {C : Prop} {w : World} {p : Phase} {g : Handle} (h : Follows w p)
    (idle : w.frame = .idle) (live : g ∈ w.dum.live) (known : ⟨g,.addReg⟩ ∉ w.dum.inFlight)
    (steady : w.controller.state ≠ .updating) (r : Response) :
    ∃ q, Lands C w (reportSuccess .refresh g r w.dum w) p q := by
  have phaseLive := h.live
  have phaseInFlight := h.inFlight
  have state := h.state
  have frame := h.frame
  have held := h.held
  refine ⟨p,⟨state,phaseLive,phaseInFlight,h.queued,?_,h.bound,?_⟩,id,fun _ good => ⟨good.tidy,good.decisions⟩⟩
  · cases p <;> simp_all [Phase.live,Phase.inFlight,Phase.state,FrameOf,reportSuccess,Refreshing,Answering]
  · cases p <;> simp_all [Phase.live,Phase.inFlight,Phase.state,FrameOf,reportSuccess,Phase.bindingHeld,Answering]

theorem retryLands {C : Prop} {env : Env} {w : World} {p : Phase} {g : Handle} (h : Follows w p)
    (idle : w.frame = .idle) (live : g ∈ w.dum.live) : ∃ q, Lands C w (onRequestRetry env g w).2 p q := by
  have phaseLive := h.live
  have frame := h.frame
  refine ⟨p,sameLands h rfl rfl rfl rfl ?_ ?_ rfl rfl⟩
  · change FrameOf p w.frame (some g)
    cases p <;> simp_all [FrameOf,Answering,Refreshing,Resting]
  · intro k bound
    cases p <;> simp_all [Phase.live,Phase.bound,onRequestRetry,assignHandle]

/-! The statements of a callback. -/

theorem restedFrame {p : Phase} {f : Frame} {handle : Option Handle} (h : FrameOf p .idle handle)
    (rest : Resting f) : FrameOf p f handle := by
  cases p <;> simp_all [FrameOf,Answering,Frame.failing,Resting,Refreshing]

/- Between idle and the next resting statement nothing else may depend on the frame. -/
theorem rested {C : Prop} {w u : World} {p q : Phase} {f : Frame} (lands : Lands C w u p q)
    (idle : u.frame = .idle) (rest : Resting f) : Lands C w {u with frame := f} p q := by
  have h := lands.follows
  have frame := h.frame
  rw [idle] at frame
  exact ⟨⟨h.state,h.live,h.inFlight,h.queued,restedFrame frame rest,h.bound,h.held⟩,lands.unstuck,
    fun order good => ⟨(lands.good order good).tidy,(lands.good order good).decisions⟩⟩

theorem assignLands {C : Prop} {w : World} {p : Phase} {op : RegOp} {g : Handle} {r : Response}
    (h : Follows w p) (frame : w.frame = .successAssign op g r) :
    ∃ q, Lands C w {assignHandle g w with frame := .successControl op r} p q := by
  have phaseFrame := h.frame
  rw [frame] at phaseFrame
  refine ⟨p,sameLands h rfl rfl rfl rfl ?_ ?_ rfl rfl⟩
  · change FrameOf p (.successControl op r) (some g)
    cases p <;> simp_all [FrameOf,Answering,Resting,Frame.failing]
    all_goals cases op <;> simp_all [Refreshing]
  · intro k bound
    change some g = some k
    cases p <;> simp_all [FrameOf,Answering,Resting,Phase.bound,Frame.failing]
    all_goals cases op <;> simp_all [Refreshing]

/- The success of an addition or of an update: Registered, and un-registered at once
when the user has logged out meanwhile. -/
theorem answeredLands {C : Prop} {w : World} {p : Phase} {g : Handle} (h : Follows w p)
    (answered : p = .addAnswered g ∨ p = .updateAnswered g) (handle : w.handle = some g) (r : Response) :
    ∃ q, Lands C w {(controlSuccess {w with frame := .idle}).2 with
      frame := .successRewrite r (controlSuccess {w with frame := .idle}).1} p q := by
  have state := h.state
  have live := h.live
  have inFlight := h.inFlight
  have queued := h.queued
  have held := h.held
  have now : ∀ op, Follows {w with frame := .idle, controller := ⟨.registered,op⟩} (.held g) := by
    intro op
    rcases answered with rfl | rfl <;>
      exact ⟨rfl,live,inFlight,queued,.inl trivial,fun k same => handle.trans same,held⟩
  have good : ∀ op, Good w p → Good {w with frame := .idle, controller := ⟨.registered,op⟩} (.held g) := by
    intro op good
    rcases answered with rfl | rfl <;> exact ⟨good.tidy,good.decisions⟩
  have waiting : w.controller.state = .registering ∨ w.controller.state = .updating := by
    rcases answered with rfl | rfl
    · exact .inl state
    · exact .inr state
  have unstuck : p ≠ .stuck := by rcases answered with rfl | rfl <;> simp
  rw [controlSuccessFrom,if_pos waiting]
  split
  · have f := now true
    exact ⟨.held g,⟨f.state,f.live,f.inFlight,f.queued,.inl trivial,f.bound,f.held⟩,by simp,
      fun _ g => ⟨(good true g).tidy,(good true g).decisions⟩⟩
  · obtain ⟨q,lands⟩ := endLands (C := C) (now false) .dum (.inl trivial) rfl
    refine ⟨q,rested ⟨lands.follows,fun _ => lands.unstuck (by simp),fun c g => lands.good c (good false g)⟩ ?_ trivial⟩
    rfl

/- A refresh success changes nothing, neither for a held binding nor while it is removed. -/
theorem refreshLands {C : Prop} {w : World} {p : Phase} {g : Handle} (h : Follows w p)
    (refreshed : p = .held g ∨ p = .endQueued g ∨ p = .endAsked g) (r : Response) :
    ∃ q, Lands C w {(controlSuccess {w with frame := .idle}).2 with
      frame := .successRewrite r (controlSuccess {w with frame := .idle}).1} p q := by
  have steady : (controlSuccess {w with frame := .idle}).2 = {w with frame := .idle} := by
    have state := h.state
    rw [controlSuccessFrom]
    rcases refreshed with rfl | rfl | rfl <;> simp_all [Phase.state]
  rw [steady]
  refine ⟨p,sameLands h rfl rfl rfl rfl ?_ h.bound rfl rfl⟩
  rcases refreshed with rfl | rfl | rfl <;> exact .inl trivial

theorem controlLands {C : Prop} {w : World} {p : Phase} {op : RegOp} {r : Response}
    (h : Follows w p) (frame : w.frame = .successControl op r) :
    ∃ q, Lands C w {(controlSuccess {w with frame := .idle}).2 with
      frame := .successRewrite r (controlSuccess {w with frame := .idle}).1} p q := by
  have phaseFrame := h.frame
  rw [frame] at phaseFrame
  cases p with
  | addAnswered g => exact answeredLands h (.inl rfl) phaseFrame.2 r
  | updateAnswered g => exact answeredLands h (.inr rfl) phaseFrame.2 r
  | held g => exact refreshLands (g := g) h (.inl rfl) r
  | endQueued g => exact refreshLands (g := g) h (.inr (.inl rfl)) r
  | endAsked g => exact refreshLands (g := g) h (.inr (.inr rfl)) r
  | failing s => exact absurd phaseFrame.1 (by simp [Frame.failing])
  | endAnswered => exact Frame.noConfusion phaseFrame
  | updateRemoved g => rcases phaseFrame with rest | other; exact rest.elim; exact Frame.noConfusion other
  | _ => exact phaseFrame.elim

theorem updateLands {C : Prop} {w : World} {p : Phase} (h : Follows w p) (rest : Resting w.frame)
    (contacts : UpdateContacts) : ∃ q, Lands C w (locked .dum (updateReg contacts) w) p q := by
  rw [lockedUpdateReg]
  by_cases state : w.controller.state = .registered
  · rw [if_pos state]
    rcases boundOrFailing h state with ⟨g,rfl⟩ | rfl
    · have handle : w.handle = some g := h.bound g rfl
      have queued : w.queue.filter (·.acts w.dum) = [] := h.queued
      refine ⟨.updateQueued g contacts,⟨rfl,h.live,h.inFlight,?_,rest,fun _ same => handle.trans same,h.held⟩,
        by simp,fun _ good => ⟨?_,?_⟩⟩
      · simp only [sendUpdateRegMsg,post,World.decide,List.filter_append,queued,handle]
        simp [DumCommand.acts,actsOfLive h.live,Phase.queued]
      · have tidy : w.queue = [] := good.tidy
        simp [sendUpdateRegMsg,post,World.decide,Tidy,tidy,handle,Phase.queued]
      · refine oneMore good.decisions (d := ⟨.updateReg,w.pending,w.history.held⟩) ?_ rfl
        exact ⟨nothingPending good.tidy h.inFlight (restingUndelivered rest),fun add => by simp at add,fun _ => h.held⟩
    · have failing := h.frame.1
      rw [restingFailing rest] at failing
      contradiction
  · rw [if_neg state]
    exact ⟨p,sameLands h rfl rfl rfl rfl h.frame h.bound rfl rfl⟩

theorem rewriteLands {C : Prop} {env : Env} {w : World} {p : Phase} {r : Response} {done : Bool}
    (h : Follows w p) (frame : w.frame = .successRewrite r done) :
    ∃ q, Lands C w {(rewriteContacts env r done {w with frame := .idle}).2 with
      frame := .successNotify (rewriteContacts env r done {w with frame := .idle}).1} p q := by
  have rest : Resting w.frame := by rw [frame]; trivial
  have idleFrame : FrameOf p .idle w.handle := by
    have phaseFrame := h.frame
    rw [frame] at phaseFrame
    cases p <;> simp_all [FrameOf,Answering,Frame.failing,Resting,Refreshing]
  have idle : Follows {w with frame := .idle} p := ⟨h.state,h.live,h.inFlight,h.queued,idleFrame,h.bound,h.held⟩
  have back : Good w p → Good {w with frame := .idle} p := fun good => ⟨good.tidy,good.decisions⟩
  rcases rewriteFrom env r done {w with frame := .idle} with ⟨_,_,contacts,result⟩ | ⟨_,result⟩
  · rw [result]
    obtain ⟨q,lands⟩ := updateLands (C := C) idle trivial contacts
    have f := lands.follows
    have overridden :
        Lands C w (overrideHosts contacts (locked .dum (updateReg contacts) {w with frame := .idle})) p q :=
      ⟨⟨f.state,f.live,f.inFlight,f.queued,f.frame,f.bound,f.held⟩,lands.unstuck,
        fun c good => ⟨(lands.good c (back good)).tidy,(lands.good c (back good)).decisions⟩⟩
    refine ⟨q,rested overridden ?_ trivial⟩
    simp only [overrideHosts,lockedUpdateReg]
    split <;> rfl
  · rw [result]
    exact ⟨p,sameLands h rfl rfl rfl rfl (restedFrame idleFrame trivial) h.bound rfl rfl⟩

theorem removedControlLands {C : Prop} {w : World} {p : Phase} {ended : Bool} (h : Follows w p)
    (fresh : Fresh w) (frame : w.frame = .removedControl ended) :
    ∃ q, Lands C w (onRemoved {w with frame := .idle}) p q := by
  have phaseFrame := h.frame
  rw [frame] at phaseFrame
  have state := h.state
  rw [onRemovedFrom]
  cases p with
  | endAnswered =>
    have live : w.dum.live = [] := h.live
    have inFlight : w.dum.inFlight = [] := h.inFlight
    have queued : w.queue.filter (·.acts w.dum) = [] := h.queued
    have leaving : w.controller.state = .deregistering := state
    rw [if_pos leaving]
    split
    · have idle : Fresh {w with frame := .idle} := ⟨fresh.live,fresh.queue,fresh.handle,by simp [frameHandle]⟩
      refine ⟨.addAsked w.dum.fresh,addAskedFollows idle live inFlight queued trivial h.held,by simp,
        fun _ good => ⟨good.tidy,?_⟩⟩
      refine oneMore good.decisions (d := ⟨.addReg,World.pending {w with frame := .idle},w.history.held⟩) ?_ rfl
      exact ⟨nothingPending good.tidy inFlight rfl,fun _ => h.held,fun other => absurd rfl other⟩
    · refine ⟨.unbound,⟨rfl,live,inFlight,queued,trivial,by simp [Phase.bound],h.held⟩,by simp,
        fun _ good => ⟨fun c member => ?_,good.decisions⟩⟩
      have tidy : w.queue = [] := good.tidy
      change c ∈ w.queue at member
      simp [tidy] at member
  | updateRemoved g =>
    have other : w.controller.state ≠ .deregistering := by rw [state]; simp [Phase.state]
    rw [if_neg other]
    exact ⟨.updateRemoved g,sameLands h rfl rfl rfl rfl (.inl trivial) h.bound rfl rfl⟩
  | failing s => exact absurd phaseFrame.1 (by simp [Frame.failing])
  | held g | endQueued g | endAsked g => exact phaseFrame.elim False.elim (fun r => r.elim)
  | _ => exact phaseFrame.elim

/- The condition of the controller: no failure reaches it while it is Deregistering. -/
def HeardFailure (w : World) (e : Event) : Prop := match e,w.frame with
  | .advance,.failureControl _ => w.controller.state ≠ .deregistering
  | _,_ => True
instance (w e) : Decidable (HeardFailure w e) := by unfold HeardFailure; split <;> infer_instance

theorem failureControlLands {C : Prop} {w : World} {p : Phase} {op : RegOp} (h : Follows w p)
    (frame : w.frame = .failureControl op) :
    ∃ q, Follows (locked .dum onRegFailure {w with frame := .idle}) q ∧
      (w.controller.state = .deregistering ↔ q = .stuck) ∧
      (C → Good w p → Good (locked .dum onRegFailure {w with frame := .idle}) q) := by
  have phaseFrame := h.frame
  rw [frame] at phaseFrame
  rw [lockedFailure]
  cases p with
  | failing s =>
    have same : w.controller.state = s := h.state
    by_cases state : w.controller.state = .deregistering
    · rw [if_pos state]
      exact ⟨.stuck,⟨state,h.live,h.inFlight,h.queued,trivial,by simp [Phase.bound],h.held⟩,
        by simp [state],fun _ good => ⟨trivial,good.decisions⟩⟩
    · rw [if_neg state]
      refine ⟨.unbound,⟨rfl,h.live,h.inFlight,h.queued,trivial,by simp [Phase.bound],h.held⟩,
        by simp [state],fun _ good => ⟨?_,good.decisions⟩⟩
      exact good.tidy (by rw [← same]; exact state)
  | updateRemoved g => exact phaseFrame.elim False.elim Frame.noConfusion
  | held g | endQueued g | endAsked g => exact phaseFrame.elim False.elim (fun r => r.elim)
  | endAnswered => exact Frame.noConfusion phaseFrame
  | _ => exact phaseFrame.elim

/- Frames of onFailure before the controller has heard of it. -/
theorem failingLands {C : Prop} {w u : World} {p : Phase} (h : Follows w p) (failing : w.frame.failing = true)
    (still : u.frame.failing = true) (same : u.controller = w.controller) (dum : u.dum = w.dum)
    (queue : u.queue = w.queue) (history : u.history = w.history) : ∃ q, Lands C w u p q := by
  have phaseFrame := h.frame
  cases p with
  | failing s =>
    exact ⟨.failing s,sameLands h (by rw [same]) (by rw [dum]) (by rw [dum]) queue ⟨still,phaseFrame.2⟩
      (by simp [Phase.bound]) (by rw [history]) (by rw [history])⟩
  | _ =>
    cases hf : w.frame <;> simp_all [FrameOf,Answering,Resting,Refreshing,Frame.failing]

/- No refresh success is taken for the outcome of an update. -/
def RefreshKnown (w : World) : Event → Prop
  | .refreshed _ _ => w.controller.state ≠ .updating
  | _ => True

structure Moves (w u : World) (e : Event) (p q : Phase) : Prop where
  follows : Follows u q
  unstuck : HeardFailure w e → p ≠ .stuck → q ≠ .stuck
  good : InOrder w e → Good w p → Good u q

theorem movesOf {w u : World} {e : Event} {p : Phase} (h : ∃ q, Lands (InOrder w e) w u p q) :
    ∃ q, Moves w u e p q := by
  obtain ⟨q,lands⟩ := h
  exact ⟨q,lands.follows,fun _ => lands.unstuck,lands.good⟩

theorem advanceMoves {env : Env} {w u : World} {p : Phase} (h : Follows w p) (fresh : Fresh w)
    (ok : advance env w = some u) : ∃ q, Moves w u .advance p q := by
  unfold advance at ok
  split at ok <;> try contradiction
  all_goals rename_i frame; cases Option.some.inj ok
  · exact movesOf (assignLands h frame)
  · exact movesOf (controlLands h frame)
  · exact movesOf (rewriteLands h frame)
  · have idleFrame : FrameOf p .idle w.handle := by
      have phaseFrame := h.frame
      rw [frame] at phaseFrame
      cases p <;> simp_all [FrameOf,Answering,Frame.failing,Resting,Refreshing]
    refine movesOf ⟨p,?_⟩
    unfold notifyDone
    split <;> exact sameLands h rfl rfl rfl rfl idleFrame h.bound rfl rfl
  · exact movesOf (removedControlLands h fresh frame)
  · exact movesOf (failingLands h (by rw [frame]; rfl) rfl rfl rfl rfl rfl)
  · exact movesOf (failingLands h (by rw [frame]; rfl) rfl rfl rfl rfl rfl)
  · obtain ⟨q,follows,stuck,good⟩ := failureControlLands (C := InOrder w .advance) h frame
    refine ⟨q,follows,fun heard _ same => ?_,good⟩
    have leaving := stuck.mpr same
    simp only [HeardFailure,frame] at heard
    exact heard leaving

theorem stepMoves {env : Env} {w u : World} {e : Event} {p : Phase} (h : Follows w p) (fresh : Fresh w)
    (known : RefreshKnown w e) (ok : step env w e = some u) : ∃ q, Moves w u e p q := by
  cases e with
  | login t => cases Option.some.inj ok; exact movesOf (loginLands h fresh t)
  | logout t => cases Option.some.inj ok; exact movesOf (logoutLands h t)
  | advance => exact advanceMoves h fresh ok
  | execute =>
    simp only [step] at ok
    split at ok <;> try contradiction
    rename_i queue
    obtain ⟨idle,_,rfl⟩ := dumStepExact ok
    exact movesOf (executeLands h fresh idle queue)
  | success x r =>
    obtain ⟨idle,enabled,rfl⟩ := dumStepExact ok
    simp only [Bool.and_eq_true,Bool.or_eq_true,beq_iff_eq,List.contains_iff_mem] at enabled
    exact movesOf (successLands h enabled.1 enabled.2 r)
  | removed x =>
    simp only [step] at ok
    split at ok <;> try contradiction
    · rename_i request
      obtain ⟨idle,enabled,rfl⟩ := dumStepExact ok
      exact movesOf ((removedLands h (List.contains_iff_mem.mp enabled)).1 request)
    · rename_i request
      obtain ⟨idle,enabled,rfl⟩ := dumStepExact ok
      exact movesOf ((removedLands h (List.contains_iff_mem.mp enabled)).2 request)
  | failure x =>
    obtain ⟨idle,enabled,rfl⟩ := dumStepExact ok
    have member := List.contains_iff_mem.mp enabled
    have inFlight := h.inFlight
    have live : p.live = [x.handle] := by
      rw [inFlight] at member
      cases p <;> simp_all [Phase.inFlight,Phase.live]
    exact movesOf (failureLands h live x.request.op)
  | refreshed g r =>
    obtain ⟨idle,enabled,rfl⟩ := dumStepExact ok
    simp only [Dum.established,Bool.and_eq_true,Bool.not_eq_true',List.contains_iff_mem] at enabled
    exact movesOf (refreshedLands h idle enabled.1 (by simpa using enabled.2) known r)
  | refreshFailed g =>
    obtain ⟨idle,enabled,rfl⟩ := dumStepExact ok
    simp only [Dum.established,Bool.and_eq_true,List.contains_iff_mem] at enabled
    have member := enabled.1.1
    have live : p.live = [g] := by
      rw [h.live] at member
      cases p <;> simp_all [Phase.live]
    exact movesOf (failureLands h live .refresh)
  | requestRetry g =>
    obtain ⟨idle,enabled,rfl⟩ := dumStepExact ok
    exact movesOf (retryLands h idle (List.contains_iff_mem.mp enabled))

theorem freshReport {w u : World} (f : Fresh w) (live : ∀ h ∈ u.dum.live, h ∈ w.dum.live)
    (up : u.dum.fresh = w.dum.fresh) (queue : u.queue = w.queue) (handle : u.handle = w.handle)
    (frame : ∀ h, frameHandle u.frame = some h → h < w.dum.fresh) : Fresh u := by
  refine ⟨?_,?_,?_,?_⟩ <;> rw [up]
  · exact fun h member => f.live h (live h member)
  · rw [queue]; exact f.queue
  · rw [handle]; exact f.handle
  · exact frame

theorem stepFresh {env : Env} {w u : World} {e : Event} {p : Phase} (h : Follows w p) (f : Fresh w)
    (ok : step env w e = some u) : Fresh u := by
  have inFlightLive : ∀ x ∈ w.dum.inFlight, x.handle ∈ w.dum.live := by
    intro x member
    rw [h.inFlight] at member
    rw [h.live]
    cases p <;> simp_all [Phase.inFlight,Phase.live]
  cases e with
  | login t =>
    cases Option.some.inj ok
    have g := freshLocked f t register
    exact ⟨g.live,g.queue,g.handle,g.frame⟩
  | logout t =>
    cases Option.some.inj ok
    have g := freshLocked f t deregister
    exact ⟨g.live,g.queue,g.handle,g.frame⟩
  | advance => exact advanceFresh f ok
  | execute =>
    simp only [step] at ok
    split at ok <;> try contradiction
    rename_i c rest queue
    obtain ⟨_,_,rfl⟩ := dumStepExact ok
    have popped : Fresh {w with queue := rest} :=
      ⟨f.live,fun d member => f.queue d (by rw [queue]; exact List.mem_cons_of_mem c member),f.handle,f.frame⟩
    exact freshExecute popped c
  | success x r =>
    obtain ⟨_,enabled,rfl⟩ := dumStepExact ok
    simp only [Bool.and_eq_true,List.contains_iff_mem] at enabled
    exact freshReport f (fun _ m => m) rfl rfl rfl (fun g same => by
      cases Option.some.inj same; exact f.live _ (inFlightLive x enabled.1))
  | removed x =>
    simp only [step] at ok
    split at ok <;> try contradiction
    all_goals obtain ⟨_,enabled,rfl⟩ := dumStepExact ok
    · exact freshReport f (fun _ m => (List.mem_filter.mp m).1) rfl rfl rfl (by simp [reportRemoved,frameHandle])
    · exact freshReport f (fun _ m => m) rfl rfl rfl (by simp [reportRemoved,frameHandle])
  | failure x =>
    obtain ⟨_,enabled,rfl⟩ := dumStepExact ok
    exact freshReport f (fun _ m => (List.mem_filter.mp m).1) rfl rfl rfl (fun g same => by
      cases Option.some.inj same; exact f.live _ (inFlightLive x (List.contains_iff_mem.mp enabled)))
  | refreshed g r =>
    obtain ⟨_,enabled,rfl⟩ := dumStepExact ok
    simp only [Dum.established,Bool.and_eq_true,List.contains_iff_mem] at enabled
    exact freshReport f (fun _ m => m) rfl rfl rfl (fun k same => by
      cases Option.some.inj same; exact f.live _ enabled.1)
  | refreshFailed g =>
    obtain ⟨_,enabled,rfl⟩ := dumStepExact ok
    simp only [Dum.established,Bool.and_eq_true,List.contains_iff_mem] at enabled
    exact freshReport f (fun _ m => (List.mem_filter.mp m).1) rfl rfl rfl (fun k same => by
      cases Option.some.inj same; exact f.live _ enabled.1.1)
  | requestRetry g =>
    obtain ⟨_,enabled,rfl⟩ := dumStepExact ok
    have live := f.live g (List.contains_iff_mem.mp enabled)
    exact ⟨f.live,f.queue,fun k same => by cases Option.some.inj same; exact live,f.frame⟩

structure Tracked (w : World) (p : Phase) : Prop where
  follows : Follows w p
  fresh : Fresh w

theorem initialTracked : Tracked World.initial .unbound :=
  ⟨⟨rfl,rfl,rfl,rfl,trivial,by simp [Phase.bound],rfl⟩,
    ⟨by simp [World.initial],by simp [World.initial],by simp [World.initial],by simp [World.initial,frameHandle]⟩⟩

/- One step of the code is one step in the life of the registration, or none. -/
theorem stepTracked {env : Env} {w u : World} {e : Event} {p : Phase} (h : Tracked w p)
    (known : RefreshKnown w e) (ok : step env w e = some u) : ∃ q, Tracked u q ∧ Moves w u e p q := by
  obtain ⟨q,moves⟩ := stepMoves h.follows h.fresh known ok
  exact ⟨q,⟨moves.follows,stepFresh h.follows h.fresh ok⟩,moves⟩

end RtcCall.RegistrationPhase
