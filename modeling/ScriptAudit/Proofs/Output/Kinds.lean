import ScriptAudit.Output.Result
import ScriptAudit.Proofs.Fault

/-!
# Errors by their kind

The errors of an output are five lists behind one another. Each one holds errors of one kind only,
so that the errors of a kind are one of the lists.

* `Finding.ofKind` — the lists.
* `Finding.filter_kind_errors` — the errors of a kind are the list of that kind.
* `Result.errors_of_ofText` — the errors of a result are those of its output and its commands.
-/

namespace ScriptAudit

namespace Finding

variable {raw : Text} {runs : List Trace.Run} {f : Finding} {k : ErrorKind}

/-- The errors of a kind, apart from those of all other kinds. -/
def ofKind (raw : Text) (runs : List Trace.Run) : ErrorKind → List Finding
  | .serverCallFailed => runs.filterMap ofRun?
  | .exception => exceptions raw
  | .assertFailed => asserts raw
  | .timeout => timeouts raw
  | .parseError => missingReport raw

theorem kind_of_ofRun? {run : Trace.Run} (h : ofRun? run = some f) : f.kind = .serverCallFailed := by
  obtain ⟨o, -, ho⟩ := Option.bind_eq_some_iff.1 h
  split at ho
  · cases ho; rfl
  · cases ho

theorem kind_of_mem_exceptions (h : f ∈ exceptions raw) : f.kind = .exception := by
  obtain ⟨m, -, hm⟩ := List.mem_filterMap.1 h
  split at hm
  · cases hm
  · cases hm; rfl

theorem kind_of_mem_asserts (h : f ∈ asserts raw) : f.kind = .assertFailed := by
  obtain ⟨t, -, rfl⟩ := List.mem_map.1 h
  rfl

theorem kind_of_mem_timeouts (h : f ∈ timeouts raw) : f.kind = .timeout := by
  rw [timeouts] at h
  split at h
  · rw [List.mem_singleton.1 h]
  · cases h

theorem kind_of_mem_missingReport (h : f ∈ missingReport raw) : f.kind = .parseError := by
  rw [missingReport] at h
  split at h
  · cases h
  · rw [List.mem_singleton.1 h]

theorem kind_of_mem_ofKind (h : f ∈ ofKind raw runs k) : f.kind = k := by
  cases k with
  | serverCallFailed =>
    obtain ⟨run, -, hrun⟩ := List.mem_filterMap.1 h
    exact kind_of_ofRun? hrun
  | assertFailed => exact kind_of_mem_asserts h
  | exception => exact kind_of_mem_exceptions h
  | timeout => exact kind_of_mem_timeouts h
  | parseError => exact kind_of_mem_missingReport h

theorem filter_kind_ofKind (raw : Text) (runs : List Trace.Run) (k k' : ErrorKind) :
    (ofKind raw runs k').filter (·.kind = k) = if k' = k then ofKind raw runs k' else [] := by
  split
  · next hk => exact List.filter_eq_self.2 fun f hf => by simpa [kind_of_mem_ofKind hf] using hk
  · next hk => exact List.filter_eq_nil_iff.2 fun f hf => by simpa [kind_of_mem_ofKind hf] using hk

/-- The errors of a kind are those that are looked for as such. -/
theorem filter_kind_errors (raw : Text) (runs : List Trace.Run) (k : ErrorKind) :
    (errors raw runs).filter (·.kind = k) = ofKind raw runs k := by
  have herrors : errors raw runs = ofKind raw runs .serverCallFailed ++ ofKind raw runs .exception ++
      ofKind raw runs .assertFailed ++ ofKind raw runs .timeout ++ ofKind raw runs .parseError := rfl
  rw [herrors]
  simp only [List.filter_append, filter_kind_ofKind]
  cases k <;> simp

end Finding

theorem Result.errors_of_ofText {raw : Text} {r : Result} (h : Result.ofText raw = .ok r) :
    ∃ runs, Trace.ofText raw = .ok runs ∧ r.errors = Finding.errors raw runs := by
  simp only [Result.ofText, bind_eq_ok_iff] at h
  obtain ⟨runs, hruns, _, -, _, -, _, -, h⟩ := h
  obtain rfl := Except.ok.inj h
  exact ⟨runs, hruns, rfl⟩

end ScriptAudit
