import RtcCall.Session.UserContext

/-! From a Logout on, until the next Login: what the context still asks of the DUM. The
controller may have to wait for an answer before it can leave, and outcomes of every
kind may still come in. -/
namespace RtcCall.Logout
open RportUpdate UserState UserContext StepRuns

/- What was decided before, and at most one un-registration since. -/
def Since (before : List Decision) : SipUserState → List Decision → Prop
  | .registered,_ => False
  | .registering,now | .updating,now => now = before
  | .deregistering,now | .deregistered,now =>
    now = before ∨ ∃ d : Decision, d.op = .endReg ∧ now = before ++ [d]

structure LoggedOut (before : List Decision) (w : World) : Prop where
  unwanted : w.controller.registOp = false
  since : Since before w.controller.state w.history.decisions

section
variable {before : List Decision} {w u : World} {env : Env}

theorem loggedOutCongr (out : LoggedOut before w) (controller : u.controller = w.controller)
    (decisions : u.history.decisions = w.history.decisions) : LoggedOut before u := by
  refine ⟨?_,?_⟩
  · rw [controller]
    exact out.unwanted
  · rw [controller,decisions]
    exact out.since

theorem sinceLeft {s : SipUserState} {now : List Decision} (since : Since before s now) :
    Since before .deregistered now := by
  cases s with
  | registered => exact since.elim
  | registering | updating => exact .inl since
  | deregistering | deregistered => exact since

theorem logoutLoggedOut (t : Thread) (w : World) : LoggedOut w.history.decisions (logout t w) := by
  unfold logout
  rw [lockedDeregister]
  split
  · refine ⟨by cases t <;> rfl,?_⟩
    cases t <;> exact .inr ⟨⟨.endReg,w.pending,w.history.held⟩,rfl,rfl⟩
  · rename_i other
    refine ⟨rfl,?_⟩
    change Since w.history.decisions w.controller.state w.history.decisions
    cases state : w.controller.state with
    | registered => exact absurd state other
    | registering | updating => rfl
    | deregistering | deregistered => exact .inl rfl

theorem logoutAgain (t : Thread) (out : LoggedOut before w) : LoggedOut before (logout t w) := by
  unfold logout
  rw [lockedDeregister,if_neg (fun state => by simpa [state,Since] using out.since)]
  exact ⟨rfl,out.since⟩

/- A success ends what is no longer wanted. -/
theorem controlLoggedOut (out : LoggedOut before w) : LoggedOut before (controlSuccess w).2 := by
  have since := out.since
  rw [controlSuccessFrom,out.unwanted]
  split
  · rename_i answered
    rw [if_neg Bool.false_ne_true]
    have same : w.history.decisions = before := by
      rcases answered with state | state <;> simpa [state,Since] using since
    exact ⟨rfl,.inr ⟨⟨.endReg,_,_⟩,rfl,congrArg (· ++ [_]) same⟩⟩
  · split <;> exact out

theorem removedLoggedOut (out : LoggedOut before w) : LoggedOut before (onRemoved w) := by
  rw [onRemovedFrom,out.unwanted]
  split
  · rw [if_neg Bool.false_ne_true]
    exact ⟨rfl,sinceLeft out.since⟩
  · exact out

theorem rewriteLoggedOut (r : Response) (goesOn : Bool) (out : LoggedOut before w) :
    LoggedOut before (rewriteContacts env r goesOn w).2 := by
  rcases rewriteFrom env r goesOn w with ⟨_,_,contacts,result⟩ | ⟨_,result⟩
  · rw [result,lockedUpdateReg,if_neg (fun state => by simpa [state,Since] using out.since)]
    exact loggedOutCongr out rfl rfl
  · rw [result]
    exact out

theorem failureLoggedOut (out : LoggedOut before w) : LoggedOut before (locked .dum onRegFailure w) := by
  rw [lockedFailure]
  split
  · exact out
  · exact ⟨out.unwanted,sinceLeft out.since⟩

theorem advanceLoggedOut (out : LoggedOut before w) (ok : advance env w = some u) : LoggedOut before u := by
  have idle : LoggedOut before {w with frame := .idle} := loggedOutCongr out rfl rfl
  unfold advance at ok
  split at ok <;> try contradiction
  all_goals cases Option.some.inj ok
  · exact loggedOutCongr out rfl rfl
  · exact loggedOutCongr (controlLoggedOut idle) rfl rfl
  · exact loggedOutCongr (rewriteLoggedOut _ _ idle) rfl rfl
  · unfold notifyDone
    split <;> exact loggedOutCongr out rfl rfl
  · exact removedLoggedOut idle
  · exact loggedOutCongr out rfl rfl
  · exact loggedOutCongr out rfl rfl
  · exact failureLoggedOut idle

theorem keepsLoggedOut (env : Env) (before : List Decision) :
    Keeps (step env) (fun _ e => ∀ t, e ≠ .login t) (LoggedOut before) := by
  intro w e u out silent ok
  cases e with
  | login t => exact absurd rfl (silent t)
  | logout t => cases Option.some.inj ok; exact logoutAgain t out
  | advance => exact advanceLoggedOut out ok
  | execute =>
    simp only [step] at ok
    split at ok <;> try contradiction
    obtain ⟨_,_,rfl⟩ := dumStepExact ok
    exact loggedOutCongr out rfl rfl
  | removed x =>
    simp only [step] at ok
    split at ok <;> try contradiction
    all_goals
      obtain ⟨_,_,rfl⟩ := dumStepExact ok
      exact loggedOutCongr out rfl rfl
  | success x r | failure x | refreshed h r | refreshFailed h | requestRetry h =>
    obtain ⟨_,_,rfl⟩ := dumStepExact ok
    exact loggedOutCongr out rfl rfl

end

/- Whatever the DUM still reports, and in whatever state the Logout finds the context:
one un-registration at most is decided after it, and no registration and no update,
until the user logs in again. -/
theorem logoutFinal (env : Env) (t : Thread) (later : List Event) (w u : World)
    (ok : run (step env) w (.logout t::later) = some u) (silent : ∀ e ∈ later, ∀ t, e ≠ .login t) :
    ∃ more, u.history.decisions = w.history.decisions ++ more ∧ more.length ≤ 1 ∧
      (∀ d ∈ more, d.op = .endReg) ∧ u.controller.state ≠ .registered := by
  have out : LoggedOut w.history.decisions u :=
    visitsLast (visitsOfKeeps (keepsLoggedOut env _) (logoutLoggedOut t w)
      (meetsOfEvents (fun e member _ => silent e member) _)) ok
  have away : u.controller.state ≠ .registered := fun state => by simpa [state,Since] using out.since
  have ended := sinceLeft out.since
  rcases ended with same | ⟨d,leaves,grown⟩
  · exact ⟨[],by rw [same,List.append_nil],Nat.zero_le _,by simp,away⟩
  · exact ⟨[d],grown,Nat.le_refl _,by simpa using leaves,away⟩

/- A Logout while the registration is still being answered. -/
theorem registeringFinal : ∃ u,
    run (step plainEnv) World.initial [.login .user,.execute] = some u ∧
    ∃ v, run (step plainEnv) u
        [.logout .user,.success ⟨0,.addReg⟩ ⟨[],none⟩,.advance,.advance,.advance] = some v ∧
      ∃ more, v.history.decisions = u.history.decisions ++ more ∧ more.length ≤ 1 ∧
        (∀ d ∈ more, d.op = .endReg) ∧ v.controller.state ≠ .registered :=
  ⟨_,rfl,_,rfl,logoutFinal plainEnv .user [.success ⟨0,.addReg⟩ ⟨[],none⟩,.advance,.advance,.advance]
    _ _ rfl (by simp)⟩

end RtcCall.Logout
