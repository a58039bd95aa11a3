import ScriptAudit.CommandLine.Answer
import ScriptAudit.Proofs.Run.History

/-!
# How a task is answered

A command line that names a task is answered by what comes of the task. A file that cannot be
opened is a failure that is told of (`CommandLine.run_answer`).
-/

namespace ScriptAudit

theorem Session.run_tryCatch {α : Type} (x : Request α) (handle : Fault → Request α)
    (s : Session) : (tryCatch x handle).run.run s =
      match x.run.run s with
      | (.ok a, s') => (.ok a, s')
      | (.error e, s') => (handle e).run.run s' := by
  change (ExceptT.tryCatch x handle).run.run s = _
  rw [ExceptT.tryCatch, ExceptT.run_mk, StateT.run_bind]
  change (x.run.run s >>= _ : Id _) = _
  rcases x.run.run s with ⟨e | a, s'⟩ <;> rfl

namespace CommandLine

/-- What is answered, given what comes of a task. -/
def told : Except Fault Answer → Except Fault Answer
  | .error (.file fault path) => .ok (.failure (fault.message path))
  | e => e

theorem run_answer [Yaml.Loader] {program : Text} {arguments : List Text} {input : Bytes}
    {task : Task} {f : Format}
    (h : Task.ofArguments program arguments = .ok (some (task, f))) (s : Session) :
    (answer program arguments input).run.run s =
      (told ((perform f input task).run.run s).1, ((perform f input task).run.run s).2) := by
  rw [answer, h]
  refine (Session.run_tryCatch _ _ s).trans ?_
  rcases (perform f input task).run.run s with ⟨e | a, s'⟩
  · cases e <;> rfl
  · rfl

end CommandLine

end ScriptAudit
