import ScriptAudit.Proofs.Run.Configuration
import ScriptAudit.Proofs.Run.History

/-!
# Rejected runners

A runner that cannot execute tests takes the place of the former one like any other, although it is
said that it has to be mended.

* `Session.replies` — the answers to a row of events.
* `Session.Rejected` — a session before and after such a replacement.
* `Session.rejected_of_problems` — later answers are those of a session in which the runner was not
  replaced only if it had been the current one before.
-/

namespace ScriptAudit

namespace Session

variable {s : Session} {r : Runner}

/-- The answers to some events. -/
def replies (s : Session) : List Event → List (Except Fault Reply)
  | [] => []
  | e :: es => (s.respond e).1 :: replies (s.respond e).2 es

/-! ## Telling runners apart -/

theorem reply_runner (s : Session) : (s.respond .runner).1 = s.current.map .runner := by
  rw [respond_of_looks rfl]
  cases s.current <;> rfl

/-- Without an interpreter no runner comes from the environment. -/
theorem current_ne_of_no_path (hrunner : s.runner = none)
    (hpath : s.environment.get? Configuration.Key.path.name = some []) :
    s.current ≠ .ok (some r) := by
  rw [current, hrunner]
  intro h
  obtain ⟨r', hr', hfilter⟩ := map_eq_ok_iff.1 h
  obtain ⟨heq, hcomplete⟩ := Option.filter_eq_some_iff.1 hfilter
  cases heq
  rw [Runner.isComplete, path_of_configured hpath hr'] at hcomplete
  cases hcomplete

/-- The session in which no interpreter is named, and nothing else. -/
def bare (s : Session) : Session :=
  { s with environment := [(Configuration.Key.path.name, [])] }

/-- Somebody who asks for the runner once no interpreter is named any more can tell which runner
had been set, and whether one had been. -/
theorem runner_eq_of_replies_eq
    (h : ∀ es, ({ s with runner := some r } : Session).replies es = s.replies es) :
    s.runner = some r := by
  cases hrunner : s.runner with
  | some r' =>
    have hreply : Except.ok (Reply.runner (some r)) = (s.respond .runner).1 :=
      (List.cons.inj (h [.runner])).1
    rw [reply_runner, current, hrunner] at hreply
    cases hreply
    rfl
  | none =>
    have hreply : Except.ok (Reply.runner (some r)) = (s.bare.respond .runner).1 :=
      (List.cons.inj (List.cons.inj (h [.change s.files s.bare.environment, .runner])).2).1
    rw [reply_runner] at hreply
    obtain ⟨r?, hcurrent, hr⟩ := map_eq_ok_iff.1 hreply.symm
    cases hr
    exact absurd hcurrent (current_ne_of_no_path (s := s.bare) hrunner (by rfl))

/-! ## Replacing the runner -/

/-- A session before and after a replacement by a runner that has to be mended. -/
structure Rejected (s s' : Session) (r : Runner) (problems : List Text) : Prop where
  /-- The runner has taken the place of the former one, and all else is as it was. -/
  session_eq : s' = { s with runner := some r }
  /-- The status that is told from now on is that of the runner. -/
  status_eq : (s'.respond .status).1 = .ok (.status ⟨r, problems⟩)
  /-- A runner that has to be mended is not valid. -/
  isValid_eq : (⟨r, problems⟩ : RunnerStatus).isValid = false
  /-- All later answers are as without the replacement exactly if it replaced nothing. -/
  replies_eq_iff : (∀ es, s'.replies es = s.replies es) ↔ s.runner = some r

/-- **A rejected runner takes the place of the former one**, and this goes unnoticed only if it had
been the current one before. -/
theorem rejected_of_problems {path url user password : Text} {timeout : Option Number}
    {problems : List Text} (hne : problems ≠ [])
    (h : (s.respond (.configure path url user password timeout)).1 = .ok (.configured problems)) :
    s.Rejected (s.respond (.configure path url user password timeout)).2
      (.ofParts path url user password timeout) problems := by
  rw [respond_configure] at h ⊢
  generalize hr : Runner.ofParts path url user password timeout = r
  obtain ⟨ps, hproblems, hps⟩ := map_eq_ok_iff.1 h
  cases hps
  refine ⟨rfl, ?_, List.isEmpty_eq_false_iff.2 hne, runner_eq_of_replies_eq, ?_⟩
  · rw [respond_of_looks rfl]
    change ((r.problems s.files).map _).map _ = _
    rw [← hr, hproblems]
    rfl
  · intro hrunner es
    rw [← hrunner]

/-- A session with an interpreter. -/
def workshop : Session where
  files := { root := .directory [("sar".toList, .file {})] }
  project := "/project".toList

/-- A runner with that interpreter is set. -/
def equip : Event :=
  .configure "sar".toList "http://server".toList "alice".toList "secret".toList none

/-- A runner without an interpreter is to be set. -/
def disrupt : Event :=
  .configure "missing".toList "http://other".toList "bob".toList "secret".toList none

/-- The runner without an interpreter is rejected and set. -/
theorem rejected_disrupt :
    [Runner.noInterpreter "missing".toList] ≠ [] ∧
      ((workshop.after [equip]).respond disrupt).1 =
        .ok (.configured [Runner.noInterpreter "missing".toList]) ∧
      (workshop.after [equip]).Rejected (workshop.after [equip, disrupt])
        (.ofParts "missing".toList "http://other".toList "bob".toList "secret".toList none)
        [Runner.noInterpreter "missing".toList] :=
  ⟨List.cons_ne_nil _ _, rfl, rejected_of_problems (List.cons_ne_nil _ _) rfl⟩

/-- It is the current one after it has been rejected, where a working one had been set as well as
where none had been. -/
theorem replies_disrupt :
    workshop.replies [equip, disrupt, .runner] =
        [.ok (.configured []), .ok (.configured [Runner.noInterpreter "missing".toList]),
          .ok (.runner disrupt.asked?)] ∧
      workshop.replies [equip, .runner] = [.ok (.configured []), .ok (.runner equip.asked?)] ∧
      equip.asked? ≠ disrupt.asked? ∧
      workshop.replies [disrupt, .runner] =
        [.ok (.configured [Runner.noInterpreter "missing".toList]),
          .ok (.runner disrupt.asked?)] ∧
      workshop.replies [.runner] = [.ok (.runner none)] := by
  refine ⟨rfl, rfl, fun h => ?_, rfl, rfl⟩
  exact absurd (congrArg (Option.map Runner.path) h) (by decide)

end Session

end ScriptAudit
