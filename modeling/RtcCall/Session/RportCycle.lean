import RtcCall.Session.UserContext

/-! Contact rewriting repeated. The registrar echoes the contacts an update leaves, the
Vias stay the same; a contact that one Via produced may be matched by another one, and
then the update is followed by an update. -/
namespace RtcCall.RportCycle
open RportUpdate UserState UserContext

/- What a contact of `del` is replaced by: its counterparts in `add`, one for each Via
that rewrote it. -/
def counterparts (contacts : UpdateContacts) (contact : NameAddr) : List NameAddr :=
  ((contacts.del.zip contacts.add).filter (·.1 == contact)).map Prod.snd

def replaced (allContacts : List NameAddr) (contacts : UpdateContacts) : List NameAddr :=
  allContacts.flatMap (fun c => if c ∈ contacts.del then counterparts contacts c else [c])

section
variable (same : NameAddr → NameAddr → Bool)

/- The contacts after the update, if the function asks for one. -/
def echoed (allContacts : List NameAddr) (vias : List Via) : List NameAddr :=
  replaced allContacts (updateRegisterationByRport same allContacts vias).2

def FixedPoint (allContacts : List NameAddr) (vias : List Via) : Prop :=
  ∀ contacts, updateRegisterationByRport same allContacts vias = (true,contacts) →
    (updateRegisterationByRport same (replaced allContacts contacts) vias).1 = false

/- What a Via makes of a contact is not rewritten again, by this Via or another. -/
def RewrittenOnce (allContacts : List NameAddr) (vias : List Via) : Prop :=
  ∀ via ∈ vias, ∀ c ∈ allContacts, Rewrites same via c →
    ∀ other ∈ vias, ¬ Rewrites same other (newContact via c)
instance (allContacts vias) : Decidable (RewrittenOnce same allContacts vias) := by
  unfold RewrittenOnce; infer_instance

variable {same} {allContacts : List NameAddr} {vias : List Via}

theorem updatesIff : (updateRegisterationByRport same allContacts vias).1 = true ↔
    ∃ via ∈ vias, ∃ c ∈ allContacts, Rewrites same via c := by
  rw [updateReturns]
  constructor
  · intro applies
    cases pairs : rewrites same allContacts vias with
    | nil => rw [pairs] at applies; cases applies
    | cons pair rest =>
      have first : (pair.1,pair.2) ∈ rewrites same allContacts vias := by rw [pairs]; exact List.mem_cons_self
      obtain ⟨via,known,member,rewritten,_⟩ := (memRewrites same).mp first
      exact ⟨via,known,pair.1,member,rewritten⟩
  · intro ⟨via,known,c,member,rewritten⟩
    have pair := (memRewrites same).mpr ⟨via,known,member,rewritten,rfl⟩
    cases pairs : rewrites same allContacts vias with
    | nil => rw [pairs] at pair; cases pair
    | cons pair rest => rfl

theorem memCounterparts {contact new : NameAddr} :
    new ∈ counterparts (updateRegisterationByRport same allContacts vias).2 contact ↔
      contact ∈ allContacts ∧ ∃ via ∈ vias, Rewrites same via contact ∧ new = newContact via contact := by
  have zipped : ((updateRegisterationByRport same allContacts vias).2.del.zip
      (updateRegisterationByRport same allContacts vias).2.add) = rewrites same allContacts vias := by
    rw [updateContacts]
    simp only [push,List.nil_append]
    exact (List.zip_of_prod rfl rfl).symm
  simp only [counterparts,zipped,List.mem_map,List.mem_filter,beq_iff_eq,Prod.exists]
  constructor
  · rintro ⟨old,last,⟨pair,rfl⟩,rfl⟩
    obtain ⟨via,known,member,rewritten,made⟩ := (memRewrites same).mp pair
    exact ⟨member,via,known,rewritten,made⟩
  · rintro ⟨member,via,known,rewritten,made⟩
    exact ⟨contact,new,⟨(memRewrites same).mpr ⟨via,known,member,rewritten,made⟩,rfl⟩,rfl⟩

theorem memEchoed {contact : NameAddr} : contact ∈ echoed same allContacts vias ↔
    (contact ∈ allContacts ∧ ∀ via ∈ vias, ¬ Rewrites same via contact) ∨
      ∃ via ∈ vias, ∃ old ∈ allContacts, Rewrites same via old ∧ contact = newContact via old := by
  simp only [echoed,replaced,List.mem_flatMap]
  constructor
  · intro ⟨c,member,inside⟩
    split at inside
    · obtain ⟨_,via,known,rewritten,made⟩ := memCounterparts.mp inside
      exact .inr ⟨via,known,c,member,rewritten,made⟩
    · rename_i kept
      have same := List.mem_singleton.mp inside
      subst same
      exact .inl ⟨member,fun via known rewritten => kept ((memDel _).mpr ⟨member,via,known,rewritten⟩)⟩
  · rintro (⟨member,kept⟩ | ⟨via,known,old,member,rewritten,made⟩)
    · refine ⟨contact,member,?_⟩
      have absent : contact ∉ (updateRegisterationByRport same allContacts vias).2.del := by
        intro deleted
        obtain ⟨_,via,known,rewritten⟩ := (memDel same).mp deleted
        exact kept via known rewritten
      rw [if_neg absent]
      exact List.mem_singleton_self contact
    · refine ⟨old,member,?_⟩
      rw [if_pos ((memDel same).mpr ⟨member,via,known,rewritten⟩)]
      exact memCounterparts.mpr ⟨member,via,known,rewritten,made⟩

/- The echoed contacts ask for another update exactly when some new contact is rewritten. -/
theorem echoedSettles : (updateRegisterationByRport same (echoed same allContacts vias) vias).1 = false ↔
    RewrittenOnce same allContacts vias := by
  rw [← Bool.not_eq_true,updatesIff]
  constructor
  · intro settled via known c member rewritten other given again
    exact settled ⟨other,given,newContact via c,memEchoed.mpr (.inr ⟨via,known,c,member,rewritten,rfl⟩),again⟩
  · intro once ⟨other,given,contact,member,again⟩
    rcases memEchoed.mp member with ⟨_,kept⟩ | ⟨via,known,old,inside,rewritten,made⟩
    · exact kept other given again
    · rw [made] at again
      exact once via known old inside rewritten other given again

theorem fixedPointIff : FixedPoint same allContacts vias ↔ RewrittenOnce same allContacts vias := by
  constructor
  · intro fixed via known c member rewritten
    have applies := updatesIff.mpr ⟨via,known,c,member,rewritten⟩
    have settled := fixed _ (Prod.ext applies rfl)
    exact echoedSettles.mp settled via known c member rewritten
  · intro once contacts result
    have echo : echoed same allContacts vias = replaced allContacts contacts := by rw [echoed,result]
    rw [← echo]
    exact echoedSettles.mpr once

/- Host and port of a contact that a Via rewrote are the ones the Via asks for. -/
theorem newContactTwice (via : Via) (c : NameAddr) : newContact via (newContact via c) = newContact via c := by
  obtain ⟨sentHost,sentPort,received,rport⟩ := via
  cases received with
  | none => rcases rport with _ | _ | _ <;> rfl
  | some host => rcases rport with _ | _ | _ <;> rfl

/- With one Via, as in a response of a single hop, the rewriting settles. -/
theorem oneViaSettles (reflexive : ∀ c, same c c = true) (via : Via) : RewrittenOnce same allContacts [via] := by
  intro first known c _ _ other given again
  rw [List.mem_singleton.mp known,List.mem_singleton.mp given] at again
  have different := again.2
  rw [newContactTwice,reflexive] at different
  cases different

end

/-! The cycle of the registration. -/

def updates (w : World) : Nat := w.history.decisions.countP (·.op = .updateReg)

/- The registrar's answers to one login: to the registration, then to the removal and
the new bindings of each update, for at most `n` answers. -/
def cycle (env : Env) (h : Handle) (vias : List Via) : Nat → List NameAddr → World → World
  | 0,_,w => w
  | n+1,allContacts,w =>
    let w := onSuccess env h ⟨allContacts,some vias⟩ w
    if w.controller.state = .updating then cycle env h vias n (echoed env.same allContacts vias) (onRemoved w)
    else w

def LoggedIn (w : World) : Prop := w.controller = ⟨.registered,true⟩ ∧ w.effects.getLast? = some (.onLoginResult true)

/- At most one update is sent, and the second answer at the latest reports the login. -/
def UpdatesOnce (env : Env) (allContacts : List NameAddr) (vias : List Via) : Prop :=
  ∀ h w n, w.controller = ⟨.registering,true⟩ →
    updates (cycle env h vias n allContacts w) ≤ updates w + 1 ∧
      (2 ≤ n → LoggedIn (cycle env h vias n allContacts w))

def rewriting (env : Env) (allContacts : List NameAddr) (vias : List Via) : Bool :=
  env.options.loginUsingSipRport && (updateRegisterationByRport env.same allContacts vias).1

section
variable (env : Env) (h : Handle) (allContacts : List NameAddr) (vias : List Via) {w : World}

/- A success that the controller waits for either sends an update or reports the login. -/
theorem answeredSuccess (wanted : w.controller.registOp = true)
    (waiting : w.controller.state = .registering ∨ w.controller.state = .updating) :
    (rewriting env allContacts vias = true ∧
      (onSuccess env h ⟨allContacts,some vias⟩ w).controller = ⟨.updating,true⟩ ∧
      updates (onSuccess env h ⟨allContacts,some vias⟩ w) = updates w + 1) ∨
    (rewriting env allContacts vias = false ∧ LoggedIn (onSuccess env h ⟨allContacts,some vias⟩ w) ∧
      updates (onSuccess env h ⟨allContacts,some vias⟩ w) = updates w) := by
  have control : controlSuccess (assignHandle h w) =
      (true,{assignHandle h w with controller := ⟨.registered,true⟩}) := by
    rw [controlSuccessFrom]
    exact (if_pos waiting).trans (if_pos wanted)
  rcases rewriteFrom env ⟨allContacts,some vias⟩ true {assignHandle h w with controller := ⟨.registered,true⟩}
    with ⟨_,applies,contacts,result⟩ | ⟨plain,result⟩
  · have success : onSuccess env h ⟨allContacts,some vias⟩ w = overrideHosts contacts (locked .dum
        (updateReg contacts) {assignHandle h w with controller := ⟨.registered,true⟩}) := by
      simp only [onSuccess,control,result,notifyDone,Bool.false_eq_true,if_false]
    refine .inl ⟨applies,?_⟩
    rw [success,lockedUpdateReg,if_pos rfl]
    refine ⟨rfl,?_⟩
    simp only [updates,overrideHosts,sendUpdateRegMsg,post,World.decide,List.countP_append,assignHandle]
    rfl
  · have success : onSuccess env h ⟨allContacts,some vias⟩ w =
        notify true {assignHandle h w with controller := ⟨.registered,true⟩} := by
      simp only [onSuccess,control,result,notifyDone,if_true]
    refine .inr ⟨plain,?_⟩
    rw [success]
    exact ⟨⟨rfl,List.getLast?_concat⟩,rfl⟩

theorem removedWhileUpdating (updating : w.controller.state = .updating) : onRemoved w = w := by
  rw [onRemovedFrom,if_neg (by rw [updating]; decide)]

theorem cycleEnds (n : Nat) (wanted : w.controller.registOp = true)
    (waiting : w.controller.state = .registering ∨ w.controller.state = .updating)
    (plain : rewriting env allContacts vias = false) :
    LoggedIn (cycle env h vias (n+1) allContacts w) ∧ updates (cycle env h vias (n+1) allContacts w) = updates w := by
  rcases answeredSuccess env h allContacts vias wanted waiting with ⟨applies,_⟩ | ⟨_,logged,count⟩
  · rw [plain] at applies
    cases applies
  · have ended : ¬ (onSuccess env h ⟨allContacts,some vias⟩ w).controller.state = .updating := by
      rw [logged.1]
      decide
    have same : cycle env h vias (n+1) allContacts w = onSuccess env h ⟨allContacts,some vias⟩ w := if_neg ended
    rw [same]
    exact ⟨logged,count⟩

theorem cycleGoes (n : Nat) (wanted : w.controller.registOp = true)
    (waiting : w.controller.state = .registering ∨ w.controller.state = .updating)
    (applies : rewriting env allContacts vias = true) : ∃ u, u.controller = ⟨.updating,true⟩ ∧
      updates u = updates w + 1 ∧
      cycle env h vias (n+1) allContacts w = cycle env h vias n (echoed env.same allContacts vias) u := by
  rcases answeredSuccess env h allContacts vias wanted waiting with ⟨_,updating,count⟩ | ⟨plain,_⟩
  · have state : (onSuccess env h ⟨allContacts,some vias⟩ w).controller.state = .updating := by rw [updating]
    refine ⟨_,updating,count,?_⟩
    have next : cycle env h vias (n+1) allContacts w = cycle env h vias n (echoed env.same allContacts vias)
        (onRemoved (onSuccess env h ⟨allContacts,some vias⟩ w)) := if_pos state
    rw [next,removedWhileUpdating state]
  · rw [plain] at applies
    cases applies

theorem settledPlain {env : Env} {allContacts : List NameAddr} {vias : List Via}
    (settles : env.options.loginUsingSipRport = true → RewrittenOnce env.same allContacts vias) :
    rewriting env (echoed env.same allContacts vias) vias = false := by
  unfold rewriting
  cases rport : env.options.loginUsingSipRport with
  | false => rfl
  | true => exact echoedSettles.mpr (settles rport)

/- The REGISTER of a login is on its way. -/
def loggingIn : World := {World.initial with controller := ⟨.registering,true⟩}

theorem updatesOnceIff : UpdatesOnce env allContacts vias ↔
    (env.options.loginUsingSipRport = true → RewrittenOnce env.same allContacts vias) := by
  constructor
  · intro once rport
    by_contra again
    have more : (updateRegisterationByRport env.same (echoed env.same allContacts vias) vias).1 = true := by
      rw [← Bool.not_eq_false,echoedSettles]
      exact again
    have first : (updateRegisterationByRport env.same allContacts vias).1 = true := by
      by_contra quiet
      apply again
      intro via known c member rewritten
      exact absurd (updatesIff.mpr ⟨via,known,c,member,rewritten⟩) quiet
    have goes : rewriting env allContacts vias = true := by simp [rewriting,rport,first]
    have goesOn : rewriting env (echoed env.same allContacts vias) vias = true := by simp [rewriting,rport,more]
    obtain ⟨u,updating,sent,next⟩ := cycleGoes (w := loggingIn) env 0 allContacts vias 1 rfl (.inl rfl) goes
    obtain ⟨v,_,twice,last⟩ := cycleGoes env 0 (echoed env.same allContacts vias) vias 0 (by rw [updating])
      (.inr (by rw [updating])) goesOn
    have bound := (once 0 loggingIn 2 rfl).1
    rw [next,last,cycle,twice,sent] at bound
    omega
  · intro settles h w n start
    have wanted : w.controller.registOp = true := by rw [start]
    have waiting : w.controller.state = .registering ∨ w.controller.state = .updating := .inl (by rw [start])
    cases n with
    | zero => exact ⟨Nat.le_succ _,by omega⟩
    | succ n =>
      cases applies : rewriting env allContacts vias with
      | false =>
        obtain ⟨logged,count⟩ := cycleEnds env h allContacts vias n wanted waiting applies
        exact ⟨by omega,fun _ => logged⟩
      | true =>
        obtain ⟨u,updating,sent,next⟩ := cycleGoes env h allContacts vias n wanted waiting applies
        rw [next]
        cases n with
        | zero => exact ⟨Nat.le_of_eq sent,by omega⟩
        | succ n =>
          obtain ⟨logged,count⟩ := cycleEnds env h (echoed env.same allContacts vias) vias n (by rw [updating])
            (.inr (by rw [updating])) (settledPlain settles)
          exact ⟨by omega,fun _ => logged⟩

end

/- Exactly when one update settles the contacts, and with them the login. -/
theorem rewritingSettles (env : Env) (allContacts : List NameAddr) (vias : List Via) :
    (FixedPoint env.same allContacts vias ↔ RewrittenOnce env.same allContacts vias) ∧
    (UpdatesOnce env allContacts vias ↔
      (env.options.loginUsingSipRport = true → RewrittenOnce env.same allContacts vias)) :=
  ⟨fixedPointIff,updatesOnceIff env allContacts vias⟩

/- A second hop that maps the address back. -/
def backVia : Via := ⟨"203.0.113.7",40000,some "10.0.0.2",some (some 4455)⟩

def rportEnv : Env := ⟨⟨true,0⟩,fun a b => a == b⟩

theorem goesBackAndForth (h : Handle) (n : Nat) {w : World} (contact : NameAddr)
    (known : contact = phone ∨ contact = phoneOutside) (wanted : w.controller.registOp = true)
    (waiting : w.controller.state = .registering ∨ w.controller.state = .updating) :
    updates (cycle rportEnv h [natVia,backVia] n [contact] w) = updates w + n ∧
      (cycle rportEnv h [natVia,backVia] n [contact] w).controller.state ≠ .registered := by
  induction n generalizing w contact with
  | zero =>
    refine ⟨rfl,?_⟩
    rcases waiting with state | state <;> rw [cycle,state] <;> decide
  | succ n ih =>
    have applies : rewriting rportEnv [contact] [natVia,backVia] = true := by
      rcases known with rfl | rfl <;> decide
    obtain ⟨u,updating,sent,next⟩ := cycleGoes rportEnv h [contact] [natVia,backVia] n wanted waiting applies
    have other : ∃ new, (new = phone ∨ new = phoneOutside) ∧
        echoed rportEnv.same [contact] [natVia,backVia] = [new] := by
      rcases known with rfl | rfl
      · exact ⟨phoneOutside,.inr rfl,by decide⟩
      · exact ⟨phone,.inl rfl,by decide⟩
    obtain ⟨new,found,echo⟩ := other
    obtain ⟨count,state⟩ := @ih u new found (by rw [updating]) (.inr (by rw [updating]))
    rw [next,echo]
    exact ⟨by omega,state⟩

/- The two Vias rewrite each other's contact: every answer is followed by one more
update, and the login is never reported. -/
theorem rewritingEndless :
    ¬ FixedPoint rportEnv.same [phone] [natVia,backVia] ∧ ¬ UpdatesOnce rportEnv [phone] [natVia,backVia] ∧
    ∀ n, updates (cycle rportEnv 0 [natVia,backVia] n [phone] loggingIn) = n ∧
      ¬ LoggedIn (cycle rportEnv 0 [natVia,backVia] n [phone] loggingIn) := by
  refine ⟨?_,?_,?_⟩
  · rw [fixedPointIff]
    decide
  · rw [updatesOnceIff]
    decide
  · intro n
    obtain ⟨count,state⟩ := @goesBackAndForth 0 n loggingIn phone (.inl rfl) rfl (.inl rfl)
    refine ⟨count.trans (Nat.zero_add n),?_⟩
    intro logged
    exact state (by rw [logged.1])

end RtcCall.RportCycle
