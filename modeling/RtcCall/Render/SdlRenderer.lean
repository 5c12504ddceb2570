import RtcCall.Lib.Lifetimes

/-! The SDL renderer and its sinks. Each sink is given its frames by the thread of its
track, and OnFrame is run statement by statement, so that the sinks of one window draw in
any order; only the copy and the present are under the renderer's mutex. -/
namespace RtcCall.Render
open StepRuns Lifetimes

/- An I420 frame: its size, and a name for what its planes hold. -/
structure Frame where
  width : Int
  height : Int
  picture : Nat
  deriving DecidableEq, Repr

/- A streaming texture, and what SDL_UpdateYUVTexture last put into it. -/
structure Texture where
  width : Int
  height : Int
  picture : Option Nat
  deriving DecidableEq, Repr

structure Rect where
  x : Int
  y : Int
  w : Int
  h : Int
  deriving DecidableEq, Repr

/- `F` are the floats of the sinks, and `scaled f n` is `static_cast<int>(f * n)`. -/
structure Place (F : Type) where
  x : F
  y : F
  w : F
  h : F
  deriving DecidableEq, Repr

def calcTextureRect {F : Type} (scaled : F → Int → Int) (p : Place F) (w h : Int) : Rect :=
  let rect : Rect := ⟨scaled p.x w,scaled p.y h,scaled p.w w,scaled p.h h⟩
  let rect := if rect.w > w then {rect with w := w} else rect
  if rect.h > h then {rect with h := h} else rect

/- Where OnFrame stands. -/
inductive Stage where
  | idle
  | started (f : Frame)
  | queried (f : Frame)
  | created (f : Frame)
  | updated (f : Frame)
  | placed (f : Frame) (w h : Int) (r : Rect)
  | locked (f : Frame) (w h : Int) (r : Rect)
  | copied (f : Frame)
  | presented
  deriving DecidableEq, Repr

structure Sink (F : Type) where
  place : Place F
  texture : Option Nat
  stage : Stage
  alive : Bool
  deriving DecidableEq, Repr

/- What the window was asked to do. A copy is logged with the frame that OnFrame was given,
the texture as it was, and the size of the output. -/
inductive Draw where
  | copy (i : Nat) (f : Frame) (shown : Option Texture) (w h : Int) (r : Rect)
  | present (i : Nat)
  deriving DecidableEq, Repr

/- Textures are numbered as they are created, and `makers` says by which sink; `destroyed`
lists the numbers SDL_DestroyTexture was called with. `held` is the application's handle of
the renderer, which every sink holds too; `closed` that it has been destroyed. -/
structure World (F : Type) where
  sinks : List (Sink F)
  textures : List Texture
  makers : List Nat
  destroyed : List Nat
  mutex : Option Nat
  draws : List Draw
  held : Bool
  closed : Bool
  deriving DecidableEq, Repr

def World.start {F : Type} : World F := ⟨[],[],[],[],none,[],true,false⟩

inductive Event (F : Type) where
  | createSink (p : Place F)
  | onFrame (i : Nat) (f : Frame)
  | queryTexture (i : Nat)
  | createTexture (i : Nat) (ok : Bool)
  | updateYUVTexture (i : Nat)
  | getOutputSize (i : Nat) (size : Option (Int × Int))
  | lockMutex (i : Nat)
  | renderCopy (i : Nat)
  | renderPresent (i : Nat)
  | unlockMutex (i : Nat)
  | destroySink (i : Nat)
  | dropRenderer
  deriving DecidableEq, Repr

section
variable {F : Type} (scaled : F → Int → Int)

/- The sink and its texture, if it has one. -/
def World.put (i : Nat) (s : Sink F) (w : World F) : World F := {w with sinks := w.sinks.set i s}

def shown (w : World F) (s : Sink F) : Option Texture := s.texture.bind (w.textures[·]?)

def destroyTexture (t : Option Nat) (w : World F) : World F := {w with destroyed := w.destroyed ++ t.toList}

/- The last shared_ptr of the renderer goes. -/
def release (w : World F) : World F := {w with closed := w.closed || (!w.held && w.sinks.all (!·.alive))}

def onSink (i : Nat) (w : World F) (f : Sink F → Option (World F)) : Option (World F) := (w.sinks[i]?).bind f

/- `if (texture_)`: another size than the frame's, and the texture is reset. -/
def queryTexture (i : Nat) (s : Sink F) (f : Frame) (w : World F) : World F := match shown w s with
  | some t =>
    if f.width ≠ t.width ∨ f.height ≠ t.height then
      destroyTexture s.texture (w.put i {s with texture := none, stage := .queried f})
    else w.put i {s with stage := .queried f}
  | none => w.put i {s with stage := .queried f}

def createTexture (i : Nat) (s : Sink F) (f : Frame) (ok : Bool) (w : World F) : World F :=
  if s.texture.isNone && ok then
    {w.put i {s with texture := some w.textures.length, stage := .created f} with
      textures := w.textures ++ [⟨f.width,f.height,none⟩]
      makers := w.makers ++ [i]}
  else w.put i {s with stage := .created f}

/- A null texture is refused by SDL. -/
def updateYUVTexture (i : Nat) (s : Sink F) (f : Frame) (w : World F) : World F :=
  {w.put i {s with stage := .updated f} with
    textures := match s.texture with
      | some k => w.textures.modify k (fun t => {t with picture := some f.picture})
      | none => w.textures}

def step (w : World F) : Event F → Option (World F)
  | .createSink p =>
    if w.held then some {w with sinks := w.sinks ++ [⟨p,none,.idle,true⟩]} else none
  | .onFrame i f => onSink i w fun s =>
    if s.alive = true ∧ s.stage = .idle then some (w.put i {s with stage := .started f}) else none
  | .queryTexture i => onSink i w fun s => match s.stage with
    | .started f => some (queryTexture i s f w)
    | _ => none
  | .createTexture i ok => onSink i w fun s => match s.stage with
    | .queried f => some (createTexture i s f ok w)
    | _ => none
  | .updateYUVTexture i => onSink i w fun s => match s.stage with
    | .created f => some (updateYUVTexture i s f w)
    | _ => none
  | .getOutputSize i size => onSink i w fun s => match s.stage,size with
    | .updated f,some (a,b) => some (w.put i {s with stage := .placed f a b (calcTextureRect scaled s.place a b)})
    | .updated _,none => some (w.put i {s with stage := .idle})
    | _,_ => none
  | .lockMutex i => onSink i w fun s => match s.stage,w.mutex with
    | .placed f a b r,none => some {w.put i {s with stage := .locked f a b r} with mutex := some i}
    | _,_ => none
  | .renderCopy i => onSink i w fun s => match s.stage with
    | .locked f a b r =>
      some {w.put i {s with stage := .copied f} with draws := w.draws ++ [.copy i f (shown w s) a b r]}
    | _ => none
  | .renderPresent i => onSink i w fun s => match s.stage with
    | .copied _ => some {w.put i {s with stage := .presented} with draws := w.draws ++ [.present i]}
    | _ => none
  | .unlockMutex i => onSink i w fun s => match s.stage with
    | .presented => some {w.put i {s with stage := .idle} with mutex := none}
    | _ => none
  | .destroySink i => onSink i w fun s =>
    if s.alive = true ∧ s.stage = .idle then
      some (release (destroyTexture s.texture (w.put i {s with texture := none, alive := false})))
    else none
  | .dropRenderer => if w.held then some (release {w with held := false}) else none

/- What is read of sink `i`; there is nothing to read of one that was not created. -/
def textureOf (w : World F) (i : Nat) : Option Nat := (w.sinks[i]?).bind (·.texture)

def stageOf (w : World F) (i : Nat) : Stage := ((w.sinks[i]?).map (·.stage)).getD .idle

def aliveOf (w : World F) (i : Nat) : Bool := ((w.sinks[i]?).map (·.alive)).getD false

def shownOf (w : World F) (i : Nat) : Option Texture := (textureOf w i).bind (w.textures[·]?)

variable {w t : World F} {i : Nat} {s u : Sink F} {e : Event F}

theorem sinkPut (found : w.sinks[i]? = some s) (j : Nat) :
    (w.sinks.set i u)[j]? = if j = i then some u else w.sinks[j]? := by
  by_cases same : j = i
  · subst same
    rw [if_pos rfl,List.getElem?_set_self (List.getElem?_eq_some_iff.mp found).1]
  · rw [if_neg same,List.getElem?_set_ne (Ne.symm same)]

theorem texturePut (found : w.sinks[i]? = some s) (set : t.sinks = w.sinks.set i u) :
    textureOf t = Function.update (textureOf w) i u.texture := by
  funext j
  simp only [textureOf,set,sinkPut found,Function.update_apply]
  split <;> rfl

theorem stagePut (found : w.sinks[i]? = some s) (set : t.sinks = w.sinks.set i u) :
    stageOf t = Function.update (stageOf w) i u.stage := by
  funext j
  simp only [stageOf,set,sinkPut found,Function.update_apply]
  split <;> rfl

theorem alivePut (found : w.sinks[i]? = some s) (set : t.sinks = w.sinks.set i u) :
    aliveOf t = Function.update (aliveOf w) i u.alive := by
  funext j
  simp only [aliveOf,set,sinkPut found,Function.update_apply]
  split <;> rfl

theorem sinkMore (p : Place F) (j : Nat) :
    (w.sinks ++ [⟨p,none,.idle,true⟩])[j]? = if j = w.sinks.length then some ⟨p,none,.idle,true⟩ else w.sinks[j]? := by
  by_cases last : j = w.sinks.length
  · rw [if_pos last,last,List.getElem?_concat_length]
  · rw [if_neg last]
    rcases Nat.lt_or_gt_of_ne last with before | after
    · exact List.getElem?_append_left before
    · rw [List.getElem?_eq_none (by simp; omega),List.getElem?_eq_none (by omega)]

theorem sinkLast (w : World F) : w.sinks[w.sinks.length]? = none := List.getElem?_eq_none (Nat.le_refl _)

theorem textureMore {p : Place F} (set : t.sinks = w.sinks ++ [⟨p,none,.idle,true⟩]) : textureOf t = textureOf w := by
  funext j
  simp only [textureOf,set,sinkMore]
  split
  · rename_i last
    rw [last,sinkLast]
    rfl
  · rfl

theorem stageMore {p : Place F} (set : t.sinks = w.sinks ++ [⟨p,none,.idle,true⟩]) : stageOf t = stageOf w := by
  funext j
  simp only [stageOf,set,sinkMore]
  split
  · rename_i last
    rw [last,sinkLast]
    rfl
  · rfl

theorem aliveMore {p : Place F} (set : t.sinks = w.sinks ++ [⟨p,none,.idle,true⟩]) :
    aliveOf t = Function.update (aliveOf w) w.sinks.length true := by
  funext j
  simp only [aliveOf,set,sinkMore,Function.update_apply]
  split <;> rfl

theorem textureFound (found : w.sinks[i]? = some s) : textureOf w i = s.texture := by simp [textureOf,found]

theorem stageFound (found : w.sinks[i]? = some s) : stageOf w i = s.stage := by simp [stageOf,found]

theorem aliveFound (found : w.sinks[i]? = some s) : aliveOf w i = s.alive := by simp [aliveOf,found]

theorem shownFound (found : w.sinks[i]? = some s) : shownOf w i = shown w s := by
  rw [shownOf,textureFound found]
  rfl

/- The steps of sink `i` that leave every texture as it is: the stage after the step, and
what becomes of the mutex and of the log. -/
inductive Passes (w : World F) (i : Nat) (s : Sink F) : Event F → Stage → Option Nat → List Draw → Prop where
  | started (f : Frame) (alive : s.alive = true) (stands : s.stage = .idle) :
      Passes w i s (.onFrame i f) (.started f) w.mutex w.draws
  | queried {f : Frame} (stands : s.stage = .started f)
      (same : ∀ x, shown w s = some x → x.width = f.width ∧ x.height = f.height) :
      Passes w i s (.queryTexture i) (.queried f) w.mutex w.draws
  | created {f : Frame} {ok : Bool} (stands : s.stage = .queried f) (refused : s.texture = none → ok = false) :
      Passes w i s (.createTexture i ok) (.created f) w.mutex w.draws
  | placed {f : Frame} (a b : Int) (stands : s.stage = .updated f) :
      Passes w i s (.getOutputSize i (some (a,b))) (.placed f a b (calcTextureRect scaled s.place a b)) w.mutex w.draws
  | skipped {f : Frame} (stands : s.stage = .updated f) :
      Passes w i s (.getOutputSize i none) .idle w.mutex w.draws
  | locked {f : Frame} {a b : Int} {r : Rect} (stands : s.stage = .placed f a b r) (free : w.mutex = none) :
      Passes w i s (.lockMutex i) (.locked f a b r) (some i) w.draws
  | copied {f : Frame} {a b : Int} {r : Rect} (stands : s.stage = .locked f a b r) :
      Passes w i s (.renderCopy i) (.copied f) w.mutex (w.draws ++ [.copy i f (shown w s) a b r])
  | presented {f : Frame} (stands : s.stage = .copied f) :
      Passes w i s (.renderPresent i) .presented w.mutex (w.draws ++ [.present i])
  | unlocked (stands : s.stage = .presented) :
      Passes w i s (.unlockMutex i) .idle none w.draws

/- What a step can be. -/
inductive Moves (w : World F) : Event F → World F → Prop where
  | createSink (p : Place F) (held : w.held = true) :
      Moves w (.createSink p) {w with sinks := w.sinks ++ [⟨p,none,.idle,true⟩]}
  | pass {i : Nat} {s : Sink F} {e : Event F} {g : Stage} {m : Option Nat} {d : List Draw}
      (found : w.sinks[i]? = some s) (passes : Passes scaled w i s e g m d) :
      Moves w e {w.put i {s with stage := g} with mutex := m, draws := d}
  | reset {i : Nat} {s : Sink F} {f : Frame} (found : w.sinks[i]? = some s) (stands : s.stage = .started f) :
      Moves w (.queryTexture i) (destroyTexture s.texture (w.put i {s with texture := none, stage := .queried f}))
  | made {i : Nat} {s : Sink F} {f : Frame} {ok : Bool} (found : w.sinks[i]? = some s) (stands : s.stage = .queried f)
      (empty : s.texture = none) :
      Moves w (.createTexture i ok) {w.put i {s with texture := some w.textures.length, stage := .created f} with
        textures := w.textures ++ [⟨f.width,f.height,none⟩]
        makers := w.makers ++ [i]}
  | filled {i : Nat} {s : Sink F} {f : Frame} (found : w.sinks[i]? = some s) (stands : s.stage = .created f) :
      Moves w (.updateYUVTexture i) (updateYUVTexture i s f w)
  | destroySink {i : Nat} {s : Sink F} (found : w.sinks[i]? = some s) (alive : s.alive = true)
      (stands : s.stage = .idle) :
      Moves w (.destroySink i) (release (destroyTexture s.texture (w.put i {s with texture := none, alive := false})))
  | dropRenderer (held : w.held = true) : Moves w .dropRenderer (release {w with held := false})

variable {scaled}

theorem queryMoves {f : Frame} (found : w.sinks[i]? = some s) (stands : s.stage = .started f) :
    Moves scaled w (.queryTexture i) (queryTexture i s f w) := by
  unfold queryTexture
  split
  · rename_i x there
    split
    · exact .reset found stands
    · rename_i same
      refine .pass found (.queried stands ?_)
      intro y other
      cases Option.some.inj (there.symm.trans other)
      rw [not_or,not_not,not_not] at same
      exact ⟨same.1.symm,same.2.symm⟩
  · rename_i nowhere
    refine .pass found (.queried stands ?_)
    intro y other
    rw [nowhere] at other
    cases other

theorem createMoves {f : Frame} {ok : Bool} (found : w.sinks[i]? = some s) (stands : s.stage = .queried f) :
    Moves scaled w (.createTexture i ok) (createTexture i s f ok w) := by
  unfold createTexture
  split
  · rename_i empty
    rw [Bool.and_eq_true,Option.isNone_iff_eq_none] at empty
    exact .made found stands empty.1
  · rename_i full
    refine .pass found (.created stands ?_)
    intro empty
    simpa [empty] using full

theorem stepMoves (ok : step scaled w e = some t) : Moves scaled w e t := by
  cases e with
  | createSink p =>
    simp only [step] at ok
    split at ok <;> try contradiction
    cases Option.some.inj ok
    exact .createSink p (by assumption)
  | dropRenderer =>
    simp only [step] at ok
    split at ok <;> try contradiction
    cases Option.some.inj ok
    exact .dropRenderer (by assumption)
  | onFrame i f =>
    obtain ⟨s,found,ok⟩ := Option.bind_eq_some_iff.mp ok
    split at ok <;> try contradiction
    rename_i idle
    cases Option.some.inj ok
    exact .pass found (.started f idle.1 idle.2)
  | queryTexture i =>
    obtain ⟨s,found,ok⟩ := Option.bind_eq_some_iff.mp ok
    split at ok <;> try contradiction
    cases Option.some.inj ok
    exact queryMoves found (by assumption)
  | createTexture i made =>
    obtain ⟨s,found,ok⟩ := Option.bind_eq_some_iff.mp ok
    split at ok <;> try contradiction
    cases Option.some.inj ok
    exact createMoves found (by assumption)
  | updateYUVTexture i =>
    obtain ⟨s,found,ok⟩ := Option.bind_eq_some_iff.mp ok
    split at ok <;> try contradiction
    cases Option.some.inj ok
    exact .filled found (by assumption)
  | getOutputSize i size =>
    obtain ⟨s,found,ok⟩ := Option.bind_eq_some_iff.mp ok
    split at ok <;> try contradiction
    all_goals cases Option.some.inj ok
    · exact .pass found (.placed _ _ (by assumption))
    · exact .pass found (.skipped (by assumption))
  | lockMutex i =>
    obtain ⟨s,found,ok⟩ := Option.bind_eq_some_iff.mp ok
    split at ok <;> try contradiction
    cases Option.some.inj ok
    exact .pass found (.locked (by assumption) (by assumption))
  | renderCopy i =>
    obtain ⟨s,found,ok⟩ := Option.bind_eq_some_iff.mp ok
    split at ok <;> try contradiction
    cases Option.some.inj ok
    exact .pass found (.copied (by assumption))
  | renderPresent i =>
    obtain ⟨s,found,ok⟩ := Option.bind_eq_some_iff.mp ok
    split at ok <;> try contradiction
    cases Option.some.inj ok
    exact .pass found (.presented (by assumption))
  | unlockMutex i =>
    obtain ⟨s,found,ok⟩ := Option.bind_eq_some_iff.mp ok
    split at ok <;> try contradiction
    cases Option.some.inj ok
    exact .pass found (.unlocked (by assumption))
  | destroySink i =>
    obtain ⟨s,found,ok⟩ := Option.bind_eq_some_iff.mp ok
    split at ok <;> try contradiction
    rename_i idle
    cases Option.some.inj ok
    exact .destroySink found idle.1 idle.2

end

end RtcCall.Render
