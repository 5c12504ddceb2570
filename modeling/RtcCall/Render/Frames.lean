import RtcCall.Render.Textures

/-! What a window is asked to draw, whatever the order in which its sinks take their
steps: one whole frame after another, as if each OnFrame drew its frame at once. -/
namespace RtcCall.Render
open StepRuns Lifetimes

/- A frame as the window was asked to show it. -/
structure Drawn where
  sink : Nat
  frame : Frame
  shown : Option Texture
  width : Int
  height : Int
  rect : Rect
  deriving DecidableEq, Repr

def Drawn.copy (d : Drawn) : Draw := .copy d.sink d.frame d.shown d.width d.height d.rect

/- A window that draws its frames whole. -/
def whole (ds : List Drawn) : List Draw := ds.flatMap fun d => [d.copy,.present d.sink]

def drawnBy (i : Nat) (ds : List Drawn) : List Frame := (ds.filter (·.sink == i)).map (·.frame)

/- The texture that shows the frame. -/
def Frame.image (f : Frame) : Texture := ⟨f.width,f.height,some f.picture⟩

def Stage.pending : Stage → Option Frame
  | .started f | .queried f | .created f | .updated f | .placed f _ _ _ | .locked f _ _ _ => some f
  | .idle | .copied _ | .presented => none

/- Between SDL_LockMutex and SDL_UnlockMutex. -/
def Stage.drawing : Stage → Bool
  | .locked _ _ _ _ | .copied _ | .presented => true
  | .idle | .started _ | .queried _ | .created _ | .updated _ | .placed _ _ _ _ => false

def Stage.copying : Stage → Bool
  | .copied _ => true
  | .idle | .started _ | .queried _ | .created _ | .updated _ | .placed _ _ _ _ | .locked _ _ _ _
  | .presented => false

/- The frame itself, at its own size. -/
def Shows (failed : Prop) (f : Frame) (x : Option Texture) : Prop :=
  (∀ y, x = some y → y = f.image) ∧ (x = none → failed)

/- What holds of the sink's texture at a stage; `failed` that SDL has refused it one. -/
def Stage.Agrees (failed : Prop) (x : Option Texture) : Stage → Prop
  | .queried f => ∀ y, x = some y → y.width = f.width ∧ y.height = f.height
  | .created f => (∀ y, x = some y → y.width = f.width ∧ y.height = f.height) ∧ (x = none → failed)
  | .updated f => Shows failed f x
  | .placed f a b r | .locked f a b r => Shows failed f x ∧ r.w ≤ a ∧ r.h ≤ b
  | .idle | .started _ | .copied _ | .presented => True

section
variable {F : Type} {scaled : F → Int → Int}

def Event.gives (i : Nat) : Event F → Option Frame
  | .onFrame j f => if j = i then some f else none
  | _ => none

/- The size of the output could not be read. -/
def Event.skips (i : Nat) : Event F → Bool
  | .getOutputSize j none => j == i
  | _ => false

/- SDL_CreateTexture has returned null. -/
def Event.refuses (i : Nat) : Event F → Bool
  | .createTexture j ok => j == i && !ok
  | _ => false

/- The frames that OnFrame of the sink was called with. -/
def given (i : Nat) (es : List (Event F)) : List Frame := es.filterMap (·.gives i)

def skips (i : Nat) (es : List (Event F)) : Nat := es.countP (·.skips i)

def Refused (i : Nat) (es : List (Event F)) : Prop := ∃ e ∈ es, e.refuses i = true

structure Drawn.Right (es : List (Event F)) (d : Drawn) : Prop where
  shows : Shows (Refused d.sink es) d.frame d.shown
  width : d.rect.w ≤ d.width
  height : d.rect.h ≤ d.height

/- The frames of a sink: each is drawn once, in its turn, or skipped, or at work. -/
structure Accounted (drawn : List Frame) (pending : Option Frame) (given : List Frame) (skips : Nat) : Prop where
  order : List.Sublist (drawn ++ pending.toList) given
  number : drawn.length + pending.toList.length + skips = given.length

theorem Accounted.takes {ds gs : List Frame} {k : Nat} (a : Accounted ds none gs k) (f : Frame) :
    Accounted ds (some f) (gs ++ [f]) k where
  order := by
    have order := a.order
    rw [Option.toList_none,List.append_nil] at order
    exact order.append (List.Sublist.refl [f])
  number := by
    have number := a.number
    simp only [Option.toList_none,List.length_nil,Option.toList_some,List.length_singleton,List.length_append]
      at number ⊢
    omega

theorem Accounted.skips {ds gs : List Frame} {k : Nat} {f : Frame} (a : Accounted ds (some f) gs k) :
    Accounted ds none gs (k+1) where
  order := by
    rw [Option.toList_none,List.append_nil]
    exact (List.sublist_append_left _ _).trans a.order
  number := by
    have number := a.number
    simp only [Option.toList_none,List.length_nil,Option.toList_some,List.length_singleton] at number ⊢
    omega

theorem Accounted.draws {ds gs : List Frame} {k : Nat} {f : Frame} (a : Accounted ds (some f) gs k) :
    Accounted (ds ++ [f]) none gs k where
  order := by
    rw [Option.toList_none,List.append_nil]
    exact a.order
  number := by
    have number := a.number
    simp only [Option.toList_none,List.length_nil,Option.toList_some,List.length_singleton,List.length_append]
      at number ⊢
    omega

/- At most one index is marked, and it is the owner. -/
def Marks (owner : Option Nat) (marked : Nat → Bool) : Prop := ∀ i, owner = some i ↔ marked i = true

theorem Marks.kept {owner : Option Nat} {marked : Nat → Bool} (m : Marks owner marked) {i : Nat} {b : Bool}
    (same : b = marked i) : Marks owner (Function.update marked i b) := by
  rw [same,Function.update_eq_self]
  exact m

theorem Marks.enter {marked : Nat → Bool} (m : Marks none marked) (i : Nat) :
    Marks (some i) (Function.update marked i true) := by
  intro j
  by_cases same : j = i
  · subst same
    simp
  · rw [Function.update_of_ne same]
    constructor
    · intro owner
      exact absurd (Option.some.inj owner).symm same
    · intro other
      exact absurd ((m j).mpr other) (by simp)

theorem Marks.leave {marked : Nat → Bool} {i : Nat} (m : Marks (some i) marked) :
    Marks none (Function.update marked i false) := by
  intro j
  by_cases same : j = i
  · subst same
    simp
  · rw [Function.update_of_ne same]
    constructor
    · intro owner
      cases owner
    · intro other
      exact absurd (Option.some.inj ((m j).mpr other)).symm same

theorem rectFits (p : Place F) (a b : Int) :
    (calcTextureRect scaled p a b).w ≤ a ∧ (calcTextureRect scaled p a b).h ≤ b := by
  unfold calcTextureRect
  by_cases wide : scaled p.w a > a <;> by_cases high : scaled p.h b > b <;> simp [wide,high] <;> omega

theorem givenMore (i : Nat) (past : List (Event F)) (e : Event F) :
    given i (past ++ [e]) = given i past ++ given i [e] :=
  List.filterMap_append ..

theorem skipsMore (i : Nat) (past : List (Event F)) (e : Event F) :
    skips i (past ++ [e]) = skips i past + skips i [e] :=
  List.countP_append ..

theorem refusedMore {i : Nat} {past : List (Event F)} (e : Event F) (failed : Refused i past) :
    Refused i (past ++ [e]) := by
  obtain ⟨x,member,what⟩ := failed
  exact ⟨x,List.mem_append_left _ member,what⟩

theorem Stage.Agrees.weaken {failed more : Prop} (imp : failed → more) {x : Option Texture} {g : Stage}
    (agrees : g.Agrees failed x) : g.Agrees more x := by
  cases g with
  | created f => exact ⟨agrees.1,imp ∘ agrees.2⟩
  | updated f => exact ⟨agrees.1,imp ∘ agrees.2⟩
  | placed f a b r => exact ⟨⟨agrees.1.1,imp ∘ agrees.1.2⟩,agrees.2⟩
  | locked f a b r => exact ⟨⟨agrees.1.1,imp ∘ agrees.1.2⟩,agrees.2⟩
  | _ => exact agrees

theorem drawnMore (i : Nat) (ds : List Drawn) (d : Drawn) :
    drawnBy i (ds ++ [d]) = if d.sink = i then drawnBy i ds ++ [d.frame] else drawnBy i ds := by
  by_cases own : d.sink = i
  · simp [drawnBy,own]
  · simp [drawnBy,own]

/- What has been asked of the window: whole frames, then at most a copy that waits for its
present while its sink holds the mutex. -/
structure Drawing (past : List (Event F)) (w : World F) (ds : List Drawn) (last : Option Drawn) : Prop where
  log : w.draws = whole ds ++ last.toList.map Drawn.copy
  right : ∀ d ∈ ds ++ last.toList, d.Right past
  locked : Marks w.mutex fun i => (stageOf w i).drawing
  copying : Marks (last.map (·.sink)) fun i => (stageOf w i).copying
  agrees : ∀ i, (stageOf w i).Agrees (Refused i past) (shownOf w i)
  accounts : ∀ i, Accounted (drawnBy i (ds ++ last.toList)) (stageOf w i).pending (given i past) (skips i past)

variable {w t : World F} {i : Nat} {s u : Sink F} {e : Event F} {past : List (Event F)} {ds : List Drawn}
  {last : Option Drawn}

theorem Drawn.Right.later {d : Drawn} (r : d.Right past) (e : Event F) : d.Right (past ++ [e]) :=
  ⟨⟨r.shows.1,refusedMore e ∘ r.shows.2⟩,r.width,r.height⟩

theorem startDrawing : Drawing [] (World.start : World F) [] none where
  log := rfl
  right := by simp
  locked := by
    intro i
    simp [World.start,stageOf,Stage.drawing]
  copying := by
    intro i
    simp [World.start,stageOf,Stage.copying]
  agrees _ := trivial
  accounts _ := ⟨List.Sublist.refl _,rfl⟩

theorem drawingPut (found : w.sinks[i]? = some s) (set : t.sinks = w.sinks.set i u) (read : Stage → Bool) :
    (fun j => read (stageOf t j)) = Function.update (fun j => read (stageOf w j)) i (read u.stage) := by
  funext j
  rw [stagePut found set,Function.update_apply,Function.update_apply]
  split <;> rfl

/- The other sinks' textures are not touched, and neither is what is known of them. -/
theorem Drawing.agreesPut (d : Drawing past w ds last) (found : w.sinks[i]? = some s) (set : t.sinks = w.sinks.set i u)
    (others : ∀ j, j ≠ i → shownOf t j = shownOf w j)
    (own : u.stage.Agrees (Refused i (past ++ [e])) (shownOf t i)) (j : Nat) :
    (stageOf t j).Agrees (Refused j (past ++ [e])) (shownOf t j) := by
  rw [stagePut found set]
  by_cases same : j = i
  · subst same
    rwa [Function.update_self]
  · rw [Function.update_of_ne same,others j same]
    exact (d.agrees j).weaken (refusedMore e)

theorem Drawing.accountsPut {drawn : List Drawn} (d : Drawing past w ds last) (found : w.sinks[i]? = some s)
    (set : t.sinks = w.sinks.set i u)
    (others : ∀ j, j ≠ i → drawnBy j drawn = drawnBy j (ds ++ last.toList) ∧ given j [e] = [] ∧ skips j [e] = 0)
    (own : Accounted (drawnBy i drawn) u.stage.pending (given i past ++ given i [e]) (skips i past + skips i [e]))
    (j : Nat) :
    Accounted (drawnBy j drawn) (stageOf t j).pending (given j (past ++ [e])) (skips j (past ++ [e])) := by
  rw [stagePut found set,givenMore,skipsMore]
  by_cases same : j = i
  · subst same
    rwa [Function.update_self]
  · obtain ⟨drawn,given,skips⟩ := others j same
    rw [Function.update_of_ne same,drawn,given,skips,List.append_nil,Nat.add_zero]
    exact d.accounts j

/- A step that no sink takes. -/
theorem Drawing.still (d : Drawing past w ds last) (draws : t.draws = w.draws) (mutex : t.mutex = w.mutex)
    (stages : stageOf t = stageOf w) (same : shownOf t = shownOf w)
    (mute : ∀ j, given j [e] = [] ∧ skips j [e] = 0) : Drawing (past ++ [e]) t ds last where
  log := draws.trans d.log
  right x member := (d.right x member).later e
  locked := by
    rw [mutex,stages]
    exact d.locked
  copying := by
    rw [stages]
    exact d.copying
  agrees j := by
    rw [stages,same]
    exact (d.agrees j).weaken (refusedMore e)
  accounts j := by
    rw [stages,givenMore,skipsMore,(mute j).1,(mute j).2,List.append_nil,Nat.add_zero]
    exact d.accounts j

theorem Drawing.lockedKept {g : Stage} (d : Drawing past w ds last) (found : w.sinks[i]? = some s)
    (set : t.sinks = w.sinks.set i u) (stands : s.stage = g) (same : u.stage.drawing = g.drawing) :
    Marks w.mutex fun j => (stageOf t j).drawing := by
  rw [drawingPut found set Stage.drawing]
  refine d.locked.kept ?_
  rw [same,stageFound found,stands]

theorem Drawing.copyingKept {g : Stage} (d : Drawing past w ds last) (found : w.sinks[i]? = some s)
    (set : t.sinks = w.sinks.set i u) (stands : s.stage = g) (same : u.stage.copying = g.copying) :
    Marks (last.map (·.sink)) fun j => (stageOf t j).copying := by
  rw [drawingPut found set Stage.copying]
  refine d.copying.kept ?_
  rw [same,stageFound found,stands]

theorem Drawing.accountsKept {g : Stage} (d : Drawing past w ds last) (found : w.sinks[i]? = some s)
    (set : t.sinks = w.sinks.set i u) (stands : s.stage = g) (same : u.stage.pending = g.pending)
    (mute : ∀ j, given j [e] = [] ∧ skips j [e] = 0) (j : Nat) : Accounted (drawnBy j (ds ++ last.toList))
    (stageOf t j).pending (given j (past ++ [e])) (skips j (past ++ [e])) := by
  refine d.accountsPut found set (fun j _ => ⟨rfl,mute j⟩) ?_ j
  rw [(mute i).1,(mute i).2,List.append_nil,Nat.add_zero,same,←stands,←stageFound found]
  exact d.accounts i

/- A step of a sink on its way to the mutex. -/
theorem Drawing.quiet {g : Stage} (d : Drawing past w ds last) (found : w.sinks[i]? = some s)
    (set : t.sinks = w.sinks.set i u) (stands : s.stage = g) (draws : t.draws = w.draws) (mutex : t.mutex = w.mutex)
    (pending : u.stage.pending = g.pending) (drawing : u.stage.drawing = g.drawing)
    (copying : u.stage.copying = g.copying) (mute : ∀ j, given j [e] = [] ∧ skips j [e] = 0)
    (others : ∀ j, j ≠ i → shownOf t j = shownOf w j)
    (own : u.stage.Agrees (Refused i (past ++ [e])) (shownOf t i)) : Drawing (past ++ [e]) t ds last where
  log := draws.trans d.log
  right x member := (d.right x member).later e
  locked := by
    rw [mutex]
    exact d.lockedKept found set stands drawing
  copying := d.copyingKept found set stands copying
  agrees := d.agreesPut found set others own
  accounts := d.accountsKept found set stands pending mute

/- The sink's own part of the invariant, at the stage it stands at. -/
theorem Drawing.here (d : Drawing past w ds last) (found : w.sinks[i]? = some s) {g : Stage} (stands : s.stage = g) :
    g.Agrees (Refused i past) (shown w s) ∧
    Accounted (drawnBy i (ds ++ last.toList)) g.pending (given i past) (skips i past) ∧
    (w.mutex = some i ↔ g.drawing = true) ∧ (last.map (·.sink) = some i ↔ g.copying = true) := by
  have stage := (stageFound found).trans stands
  have agrees := d.agrees i
  have accounts := d.accounts i
  have locked := d.locked i
  have copying := d.copying i
  simp only [stage,shownFound found] at agrees accounts locked copying
  exact ⟨agrees,accounts,locked,copying⟩

theorem copyingDraws {g : Stage} (copying : g.copying = true) : g.drawing = true := by
  cases g with
  | copied f => rfl
  | _ => cases copying

/- A copy without its present is its sink's that holds the mutex. -/
theorem Drawing.owner {x : Drawn} (d : Drawing past w ds (some x)) : w.mutex = some x.sink :=
  (d.locked x.sink).mpr (copyingDraws ((d.copying x.sink).mp rfl))

/- The mutex keeps every other sink from a copy of its own. -/
theorem Drawing.noCopy (d : Drawing past w ds last) (found : w.sinks[i]? = some s) {f : Frame} {a b : Int} {r : Rect}
    (stands : s.stage = .locked f a b r) : last = none := by
  obtain ⟨_,_,owner,copying⟩ := d.here found stands
  cases other : last with
  | none => rfl
  | some x =>
    subst other
    have own : i = x.sink := Option.some.inj ((owner.mpr rfl).symm.trans d.owner)
    cases copying.mp (congrArg some own.symm)

/- A step that writes only the stage of its sink, the mutex and the log. -/
theorem shownSame {g : Stage} (found : w.sinks[i]? = some s) (set : t.sinks = w.sinks.set i {s with stage := g})
    (textures : t.textures = w.textures) : shownOf t = shownOf w := by
  funext j
  rw [shownOf,shownOf,texturePut found set,←textureFound found,Function.update_eq_self,textures]

theorem Custody.shownSome (c : Custody w) {k : Nat} (holds : textureOf w i = some k) : ∃ x, shownOf w i = some x := by
  have made := (List.getElem?_eq_some_iff.mp (c.ledger.live i k holds).1).1
  rw [c.count] at made
  exact ⟨_,by rw [shownOf,holds,Option.bind_some,List.getElem?_eq_getElem made]⟩

theorem passDrawing {g : Stage} {m : Option Nat} {l : List Draw} (c : Custody w) (d : Drawing past w ds last)
    (found : w.sinks[i]? = some s) (passes : Passes scaled w i s e g m l) :
    ∃ ds' last', Drawing (past ++ [e]) {w.put i {s with stage := g} with mutex := m, draws := l} ds' last' := by
  have same := shownSame (t := {w.put i {s with stage := g} with mutex := m, draws := l}) found rfl rfl
  have others : ∀ j, j ≠ i → _ := fun j _ => congrFun same j
  have mine := congrFun same i
  rw [shownFound found] at mine
  have later : ∀ x ∈ ds ++ last.toList, x.Right (past ++ [e]) := fun x member => (d.right x member).later e
  cases passes with
  | started f alive stands =>
    obtain ⟨_,accounts,_,_⟩ := d.here found stands
    refine ⟨ds,last,d.log,later,?_,?_,?_,?_⟩
    · exact d.lockedKept found rfl stands rfl
    · exact d.copyingKept found rfl stands rfl
    · exact d.agreesPut found rfl others trivial
    · refine d.accountsPut found rfl ?_ ?_
      · intro j apart
        simp [given,skips,Event.gives,Event.skips,Ne.symm apart]
      · rw [show given i [Event.onFrame (F := F) i f] = [f] by simp [given,Event.gives]]
        exact accounts.takes f
  | queried stands fits =>
    refine ⟨ds,last,d.quiet found rfl stands rfl rfl rfl rfl rfl (fun _ => ⟨rfl,rfl⟩) others ?_⟩
    rw [mine]
    exact fits
  | @created f ok stands refused =>
    obtain ⟨agrees,_,_,_⟩ := d.here found stands
    refine ⟨ds,last,d.quiet found rfl stands rfl rfl rfl rfl rfl (fun _ => ⟨rfl,rfl⟩) others ?_⟩
    rw [mine]
    refine ⟨agrees,?_⟩
    intro blank
    have empty : s.texture = none := by
      cases holds : s.texture with
      | none => rfl
      | some k =>
        obtain ⟨x,there⟩ := c.shownSome ((textureFound found).trans holds)
        rw [shownFound found,blank] at there
        cases there
    exact ⟨_,List.mem_append_right _ (List.mem_singleton_self _),by simp [Event.refuses,refused empty]⟩
  | @placed f a b stands =>
    obtain ⟨agrees,_,_,_⟩ := d.here found stands
    refine ⟨ds,last,d.quiet found rfl stands rfl rfl rfl rfl rfl (fun _ => ⟨rfl,rfl⟩) others ?_⟩
    rw [mine]
    exact ⟨⟨agrees.1,refusedMore _ ∘ agrees.2⟩,rectFits s.place a b⟩
  | skipped stands =>
    obtain ⟨_,accounts,_,_⟩ := d.here found stands
    refine ⟨ds,last,d.log,later,?_,?_,?_,?_⟩
    · exact d.lockedKept found rfl stands rfl
    · exact d.copyingKept found rfl stands rfl
    · exact d.agreesPut found rfl others trivial
    · refine d.accountsPut found rfl ?_ ?_
      · intro j apart
        simp [given,skips,Event.gives,Event.skips,Ne.symm apart]
      · rw [show skips i [Event.getOutputSize (F := F) i none] = 1 by simp [skips,Event.skips]]
        rw [show given i [Event.getOutputSize (F := F) i none] = [] from rfl,List.append_nil]
        exact accounts.skips
  | @locked f a b r stands free =>
    obtain ⟨agrees,_,_,_⟩ := d.here found stands
    refine ⟨ds,last,d.log,later,?_,?_,?_,?_⟩
    · have none := d.locked
      rw [free] at none
      rw [drawingPut found rfl Stage.drawing]
      exact none.enter i
    · exact d.copyingKept found rfl stands rfl
    · refine d.agreesPut found rfl others ?_
      rw [mine]
      exact agrees.weaken (refusedMore _)
    · exact d.accountsKept found rfl stands rfl (fun _ => ⟨rfl,rfl⟩)
  | @copied f a b r stands =>
    obtain ⟨agrees,accounts,_,_⟩ := d.here found stands
    have none := d.noCopy found stands
    subst none
    refine ⟨ds,some ⟨i,f,shown w s,a,b,r⟩,?_,?_,?_,?_,?_,?_⟩
    · simp [d.log,Drawn.copy]
    · intro x member
      rcases List.mem_append.mp member with old | new
      · exact later x (List.mem_append_left _ old)
      · cases List.mem_singleton.mp new
        exact ⟨⟨agrees.1.1,refusedMore _ ∘ agrees.1.2⟩,agrees.2.1,agrees.2.2⟩
    · exact d.lockedKept found rfl stands rfl
    · rw [drawingPut found rfl Stage.copying]
      exact Marks.enter d.copying i
    · exact d.agreesPut found rfl others trivial
    · refine d.accountsPut found rfl ?_ ?_
      · intro j apart
        refine ⟨?_,rfl,rfl⟩
        rw [Option.toList_some,drawnMore,if_neg (Ne.symm apart),Option.toList_none,List.append_nil]
      · rw [Option.toList_some,drawnMore,if_pos rfl]
        rw [Option.toList_none,List.append_nil] at accounts
        rw [show given i [Event.renderCopy (F := F) i] = [] from rfl,List.append_nil]
        exact accounts.draws
  | @presented f stands =>
    obtain ⟨_,accounts,_,copying⟩ := d.here found stands
    obtain ⟨x,there,own⟩ := Option.map_eq_some_iff.mp (copying.mpr rfl)
    subst there
    refine ⟨ds ++ [x],none,?_,?_,?_,?_,?_,?_⟩
    · simp [d.log,whole,own]
    · simpa using later
    · exact d.lockedKept found rfl stands rfl
    · rw [drawingPut found rfl Stage.copying]
      have marks := d.copying
      rw [Option.map_some,own] at marks
      exact marks.leave
    · exact d.agreesPut found rfl others trivial
    · rw [Option.toList_none,List.append_nil]
      exact d.accountsKept found rfl stands rfl (fun _ => ⟨rfl,rfl⟩)
  | unlocked stands =>
    obtain ⟨_,_,owner,_⟩ := d.here found stands
    refine ⟨ds,last,d.log,later,?_,?_,?_,?_⟩
    · have marks := d.locked
      rw [owner.mpr rfl] at marks
      rw [drawingPut found rfl Stage.drawing]
      exact marks.leave
    · exact d.copyingKept found rfl stands rfl
    · exact d.agreesPut found rfl others trivial
    · exact d.accountsKept found rfl stands rfl (fun _ => ⟨rfl,rfl⟩)

/- The texture of another sink is another texture. -/
theorem Custody.apart (c : Custody w) {j k l : Nat} (other : j ≠ i) (left : textureOf w i = some k)
    (right : textureOf w j = some l) : k ≠ l := by
  rintro rfl
  have one := (c.ledger.live i k left).1
  have two := (c.ledger.live j k right).1
  exact other (Option.some.inj (two.symm.trans one))

theorem moveDrawing (c : Custody w) (d : Drawing past w ds last) (moves : Moves scaled w e t) :
    ∃ ds' last', Drawing (past ++ [e]) t ds' last' := by
  cases moves with
  | createSink p held =>
    refine ⟨ds,last,d.still rfl rfl (stageMore (p := p) rfl) ?_ (fun _ => ⟨rfl,rfl⟩)⟩
    funext j
    rw [shownOf,shownOf,textureMore (p := p) rfl]
  | pass found passes => exact passDrawing c d found passes
  | @reset i s f found stands =>
    refine ⟨ds,last,d.quiet found rfl stands rfl rfl rfl rfl rfl (fun _ => ⟨rfl,rfl⟩) ?_ ?_⟩
    · intro j apart
      rw [shownOf,shownOf,texturePut found rfl,Function.update_of_ne apart]
      rfl
    · intro x there
      rw [shownOf,texturePut found rfl,Function.update_self] at there
      cases there
  | @made i s f ok found stands empty =>
    refine ⟨ds,last,d.quiet found rfl stands rfl rfl rfl rfl rfl (fun _ => ⟨rfl,rfl⟩) ?_ ?_⟩
    · intro j apart
      rw [shownOf,shownOf,texturePut found rfl,Function.update_of_ne apart]
      cases holds : textureOf w j with
      | none => rfl
      | some k =>
        have inside := (List.getElem?_eq_some_iff.mp (c.ledger.live j k holds).1).1
        rw [c.count] at inside
        exact List.getElem?_append_left inside
    · rw [shownOf,texturePut found rfl,Function.update_self]
      simp [Stage.Agrees]
  | @filled i s f found stands =>
    obtain ⟨agrees,_,_,_⟩ := d.here found stands
    refine ⟨ds,last,d.quiet found rfl stands rfl rfl rfl rfl rfl (fun _ => ⟨rfl,rfl⟩) ?_ ?_⟩
    · intro j apart
      rw [shownOf,shownOf,texturePut found rfl,Function.update_of_ne apart]
      cases right : textureOf w j with
      | none => rfl
      | some l =>
        cases left : s.texture with
        | none => simp [updateYUVTexture,left]
        | some k =>
          have different := c.apart apart ((textureFound found).trans left) right
          simp [updateYUVTexture,left,List.getElem?_modify,different]
    · rw [shownOf,texturePut found rfl,Function.update_self]
      cases holds : s.texture with
      | none => exact ⟨by simp,fun _ => refusedMore _ (agrees.2 (by simp [shown,holds]))⟩
      | some k =>
        obtain ⟨x,there⟩ := c.shownSome ((textureFound found).trans holds)
        rw [shownFound found] at there
        have fits := agrees.1 x there
        simp only [shown,holds,Option.bind_some] at there
        simp [Stage.Agrees,Shows,updateYUVTexture,holds,List.getElem?_modify,there,Frame.image,fits]
  | @destroySink i s found alive stands =>
    refine ⟨ds,last,d.quiet found rfl stands rfl rfl ?_ ?_ ?_ (fun _ => ⟨rfl,rfl⟩) ?_ ?_⟩
    · exact congrArg Stage.pending stands
    · exact congrArg Stage.drawing stands
    · exact congrArg Stage.copying stands
    · intro j apart
      rw [shownOf,shownOf,texturePut found rfl,Function.update_of_ne apart]
      rfl
    · rw [show _ = Stage.idle from stands]
      trivial
  | dropRenderer held => exact ⟨ds,last,d.still rfl rfl rfl rfl (fun _ => ⟨rfl,rfl⟩)⟩

def Follows (past : List (Event F)) (w : World F) : Prop := Custody w ∧ ∃ ds last, Drawing past w ds last

theorem stepFollows (past : List (Event F)) (w : World F) (e : Event F) (t : World F) (f : Follows past w)
    (ok : step scaled w e = some t) : Follows (past ++ [e]) t := by
  obtain ⟨c,ds,last,d⟩ := f
  exact ⟨moveCustody c (stepMoves ok),moveDrawing c d (stepMoves ok)⟩

/- The window has drawn whole frames, each as its sink was given it, and each sink's in
their order; a sink at rest has drawn all of them, but for those it could not place. -/
structure InTurn (es : List (Event F)) (w : World F) (ds : List Drawn) (last : Option Drawn) : Prop where
  log : w.draws = whole ds ++ last.toList.map Drawn.copy
  owner : ∀ x, last = some x → w.mutex = some x.sink
  right : ∀ d ∈ ds ++ last.toList, d.Right es
  accounts : ∀ i, Accounted (drawnBy i (ds ++ last.toList)) (stageOf w i).pending (given i es) (skips i es)
  every : ∀ i, (stageOf w i).pending = none → skips i es = 0 → drawnBy i (ds ++ last.toList) = given i es

theorem Accounted.every {ds gs : List Frame} (a : Accounted ds none gs 0) : ds = gs := by
  have order := a.order
  have number := a.number
  rw [Option.toList_none,List.append_nil] at order
  exact order.eq_of_length (by simpa using number)

theorem Drawing.inTurn (d : Drawing past w ds last) : InTurn past w ds last where
  log := d.log
  owner x there := by
    subst there
    exact d.owner
  right := d.right
  accounts := d.accounts
  every i rest placed := by
    have a := d.accounts i
    rw [rest,placed] at a
    exact a.every

theorem framesDrawn (scaled : F → Int → Int) (es : List (Event F)) (w : World F)
    (ran : run (step scaled) .start es = some w) : ∃ ds last, InTurn es w ds last := by
  have began : Follows [] (World.start : World F) := ⟨startCustody,[],none,startDrawing⟩
  obtain ⟨_,ds,last,d⟩ := runHistory stepFollows began ran
  exact ⟨ds,last,d.inTurn⟩

end

def percent (f n : Int) : Int := f * n / 100

/- The second sink copies while the first waits for the mutex with a frame of its own. -/
def twoSinks : List (Event Int) := [.createSink ⟨0,0,50,50⟩,.createSink ⟨50,50,80,80⟩,.onFrame 0 ⟨4,2,7⟩,
  .onFrame 1 ⟨6,4,8⟩,.queryTexture 0,.queryTexture 1,.createTexture 1 true,.createTexture 0 true,.updateYUVTexture 1,
  .updateYUVTexture 0,.getOutputSize 1 (some (200,100)),.getOutputSize 0 (some (200,100)),.lockMutex 1,.renderCopy 1,
  .renderPresent 1,.unlockMutex 1,.lockMutex 0,.renderCopy 0]

def twoSinksDrew : World Int where
  sinks := [⟨⟨0,0,50,50⟩,some 1,.copied ⟨4,2,7⟩,true⟩,⟨⟨50,50,80,80⟩,some 0,.idle,true⟩]
  textures := [⟨6,4,some 8⟩,⟨4,2,some 7⟩]
  makers := [1,0]
  destroyed := []
  mutex := some 0
  draws := [.copy 1 ⟨6,4,8⟩ (some ⟨6,4,some 8⟩) 200 100 ⟨100,50,160,80⟩,.present 1,
    .copy 0 ⟨4,2,7⟩ (some ⟨4,2,some 7⟩) 200 100 ⟨0,0,100,50⟩]
  held := true
  closed := false

theorem twoSinksDrawn : ∃ ds last, InTurn twoSinks twoSinksDrew ds last :=
  framesDrawn percent twoSinks twoSinksDrew (by decide)

end RtcCall.Render
