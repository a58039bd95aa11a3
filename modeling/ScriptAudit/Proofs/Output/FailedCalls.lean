import Mathlib.Data.List.Forall2
import ScriptAudit.Proofs.Fault
import ScriptAudit.Proofs.Output.Kinds
import ScriptAudit.Proofs.Redaction.Secrets
import ScriptAudit.Proofs.Trace.Entry
import ScriptAudit.Proofs.Trace.Nesting
import ScriptAudit.Output.Result

/-!
# Failed server calls

`Trace.entries` are the lines of a trace as they stand in the output. A call failed when the last
result before the next command has a status code of 400 or more: `Finding.failedCalls` reads this
off the entries, with no tokens, no levels and no tree.

* `Trace.Token.ReadFrom` — the token of an entry; `Trace.forall₂_tokensFrom` relates all of them.
* `Trace.status_lastOutcome` — the outcome of a command is that of its last result.
* `Result.failed_calls` — the errors of server calls are the failed calls.
-/

namespace ScriptAudit

namespace Trace

/-! ## Entries -/

/-- The entries of the trace in a text, in order; all other lines are passed over. -/
def entries (raw : Text) : List Entry :=
  (Text.lines raw).filterMap fun l => entry? (Text.trim l)

namespace Entry

/-- Whether an entry is that of a result and not that of a command. -/
def isResult (e : Entry) : Bool := e.code.isSome

/-- The status code of a result. -/
def status? (e : Entry) : Option Nat :=
  e.code.map fun ds => Numeral.value (ds.filterMap decimalValue?)

end Entry

/-- The status code of the last result before the next command. -/
def lastStatus (es : List Entry) : Option Nat :=
  ((es.takeWhile Entry.isResult).getLast?).bind Entry.status?

end Trace

namespace Finding

/-- The error of a command whose call ended with a status code. -/
def ofCall (e : Trace.Entry) (code : Nat) : Finding where
  kind := .serverCallFailed
  message := "Server call failed: " ++ e.text
  location := some (e.timestamp ++ " - ".toList ++ ((Text.words e.text).head?).getD e.text)
  statusCode := some code
  suggestion := some (advice code)

/-- The error of the command that the entries begin with, if they begin with one that failed. -/
def failedCall? : List Trace.Entry → Option Finding
  | [] => none
  | e :: es =>
    if e.isResult then none
    else (Trace.lastStatus es).bind fun code => if code ≥ 400 then some (ofCall e code) else none

/-- The errors of all commands that failed, in order. -/
def failedCalls (es : List Trace.Entry) : List Finding := es.tails.filterMap failedCall?

end Finding

namespace Trace

/-! ## Tokens -/

/-- The token of an entry. -/
structure Token.ReadFrom (t : Token) (e : Entry) : Prop where
  timestamp : t.timestamp = e.timestamp
  text : t.text = e.text
  event : t.event = match e.status? with
    | none => .command
    | some code => .result code

theorem value_of_count {ds : Text} {n : Nat} (h : count ds = .ok n) :
    Numeral.value (ds.filterMap decimalValue?) = n := by
  rw [count] at h
  split at h
  · cases h
  · exact Except.ok.inj h

theorem readFrom_of_token? {number : Nat} {l : Text} {token : Option Token}
    (h : token? number l = .ok token) :
    Option.Rel Token.ReadFrom token ( entry? (Text.trim l)) := by
  rw [token?] at h
  cases he : entry? (Text.trim l) with
  | none =>
    rw [he] at h
    obtain rfl := Except.ok.inj h
    exact .none
  | some e =>
    rw [he] at h
    have htext : Text.trim e.text = e.text := trim_text_of_entry? he
    cases hcode : e.code with
    | none =>
      simp only [hcode] at h
      obtain rfl := Except.ok.inj h
      exact .some ⟨rfl, htext, by simp [Entry.status?, hcode]⟩
    | some ds =>
      simp only [hcode] at h
      obtain ⟨event, hevent, h⟩ := bind_eq_ok_iff.1 h
      obtain ⟨n, hn, rfl⟩ := map_eq_ok_iff.1 hevent
      obtain rfl := Except.ok.inj h
      exact .some ⟨rfl, htext, by simp [Entry.status?, hcode, value_of_count hn]⟩

/-- The tokens of a text are those of its entries. -/
theorem forall₂_tokensFrom {number : Nat} {ls : List Text} {ts : List Token}
    (h : tokensFrom number ls = .ok ts) :
    List.Forall₂ Token.ReadFrom ts (ls.filterMap fun l => entry? (Text.trim l)) := by
  induction ls generalizing number ts with
  | nil =>
    obtain rfl := Except.ok.inj h
    exact .nil
  | cons l ls ih =>
    obtain ⟨token, htoken, h⟩ := bind_eq_ok_iff.1 h
    obtain ⟨rest, hrest, h⟩ := bind_eq_ok_iff.1 h
    obtain rfl := Except.ok.inj h
    have hread := readFrom_of_token? htoken
    rw [List.filterMap_cons]
    revert hread
    cases entry? (Text.trim l) with
    | none => rintro ⟨⟩; exact ih hrest
    | some e => rintro ⟨⟩; exact .cons ‹_› (ih hrest)

/-! ## Results -/

variable {t : Token} {ts : List Token} {e : Entry} {es : List Entry}

theorem lastStatus_of_command (h : e.status? = none) (es : List Entry) :
    lastStatus (e :: es) = none := by
  have hcommand : e.isResult = false := by simpa [Entry.status?, Entry.isResult] using h
  rw [lastStatus, List.takeWhile_cons_of_neg (by simp [hcommand])]
  rfl

theorem lastStatus_of_result {code : Nat} (h : e.status? = some code) (es : List Entry) :
    lastStatus (e :: es) = (lastStatus es).or (some code) := by
  have hresult : e.isResult = true := by
    rw [Entry.isResult, ← Option.isSome_map, ← Entry.status?, h]
    rfl
  rw [lastStatus, List.takeWhile_cons_of_pos hresult, List.getLast?_cons, lastStatus]
  cases hlast : (es.takeWhile Entry.isResult).getLast? with
  | none => simpa using h
  | some l =>
    have hl : l.isResult = true := List.mem_takeWhile_imp (List.mem_of_getLast? hlast)
    obtain ⟨ds, hds⟩ := Option.isSome_iff_exists.1 hl
    simp [Entry.status?, hds]

theorem lastStatus_eq_some_iff {es : List Entry} {code : Nat} :
    lastStatus es = some code ↔ ∃ rs e rest, es = rs ++ e :: rest ∧
      (∀ r ∈ rs, r.isResult = true) ∧ e.status? = some code ∧
        ∀ e' ∈ rest.head?, e'.isResult = false := by
  constructor
  · intro h
    obtain ⟨e, hlast, he⟩ := Option.bind_eq_some_iff.1 h
    obtain ⟨rs, hrs⟩ := List.getLast?_eq_some_iff.1 hlast
    have hmem (r : Entry) (hr : r ∈ rs) : r ∈ es.takeWhile Entry.isResult :=
      hrs ▸ List.mem_append_left _ hr
    refine ⟨rs, e, es.dropWhile Entry.isResult, ?_, fun r hr => List.mem_takeWhile_imp (hmem r hr),
      he, fun e' he' => ?_⟩
    · calc es = es.takeWhile Entry.isResult ++ es.dropWhile Entry.isResult :=
            List.takeWhile_append_dropWhile.symm
        _ = rs ++ e :: es.dropWhile Entry.isResult := by rw [hrs, List.append_assoc]; rfl
    · have hnot := List.head?_dropWhile_not Entry.isResult es
      rw [Option.mem_def.1 he'] at hnot
      exact hnot
  · rintro ⟨rs, e, rest, rfl, hrs, he, hrest⟩
    have hnone : lastStatus rest = none := by
      cases rest with
      | nil => rfl
      | cons e' rest =>
        have hcommand : e'.isResult = false := hrest e' rfl
        exact lastStatus_of_command (by simpa [Entry.isResult, Entry.status?] using hcommand) rest
    induction rs with
    | nil => rw [List.nil_append, lastStatus_of_result he, hnone, Option.none_or]
    | cons r rs ih =>
      obtain ⟨ds, hds⟩ := Option.isSome_iff_exists.1 (hrs r List.mem_cons_self)
      have hr : r.status? = some (Numeral.value (ds.filterMap decimalValue?)) := by
        simp [Entry.status?, hds]
      rw [List.cons_append, lastStatus_of_result hr,
        ih fun r hr => hrs r (List.mem_cons_of_mem _ hr), Option.some_or]

/-- The outcome of a command has the status code of its last result. -/
theorem status_lastOutcome (h : List.Forall₂ Token.ReadFrom ts es) :
    (lastOutcome ts).map Outcome.code = lastStatus es := by
  induction h with
  | nil => rfl
  | @cons t e ts es hte _ ih =>
    have hevent := hte.event
    cases hstatus : e.status? with
    | none =>
      rw [hstatus] at hevent
      rw [lastOutcome_of_command hevent, lastStatus_of_command hstatus]
      rfl
    | some code =>
      rw [hstatus] at hevent
      rw [lastOutcome_of_result hevent, lastStatus_of_result hstatus, Option.map_or, ih]
      rfl

end Trace

namespace Finding

open Trace

variable {t : Token} {ts : List Token} {e : Entry} {es : List Entry}

theorem ofRun?_headRun? (h : List.Forall₂ Token.ReadFrom ts es) :
    (headRun? ts).bind ofRun? = failedCall? es := by
  cases h with
  | nil => rfl
  | @cons t e ts es hte hrest =>
    have hevent := hte.event
    cases hcode : e.code with
    | none =>
      have hstatus : e.status? = none := by simp [Entry.status?, hcode]
      rw [hstatus] at hevent
      have hcommand : e.isResult = false := by simp [Entry.isResult, hcode]
      rw [headRun?, hevent, failedCall?, if_neg (by simp [hcommand]), ← status_lastOutcome hrest,
        Option.bind_some, ofRun?, Option.bind_map, Run.command, hte.timestamp, hte.text]
      rfl
    | some ds =>
      have hresult : e.isResult = true := by simp [Entry.isResult, hcode]
      have hstatus : e.status? = some (Numeral.value (ds.filterMap decimalValue?)) := by
        simp [Entry.status?, hcode]
      rw [hstatus] at hevent
      rw [headRun?, hevent, failedCall?, if_pos hresult]
      rfl

/-- A call failed when the last result before the next command says so. -/
theorem failedCall?_eq_some_iff {f : Finding} :
    failedCall? es = some f ↔ ∃ c rs e rest code, es = c :: (rs ++ e :: rest) ∧
      c.isResult = false ∧ (∀ r ∈ rs, r.isResult = true) ∧ e.status? = some code ∧
        (∀ e' ∈ rest.head?, e'.isResult = false) ∧ code ≥ 400 ∧ f = ofCall c code := by
  cases es with
  | nil => exact ⟨nofun, by rintro ⟨_, _, _, _, _, h, -⟩; cases h⟩
  | cons c es =>
    rw [failedCall?]
    constructor
    · intro h
      split at h
      · cases h
      next hcommand =>
      obtain ⟨code, hcode, hfound⟩ := Option.bind_eq_some_iff.1 h
      obtain ⟨rs, e, rest, rfl, hrs, he, hrest⟩ := lastStatus_eq_some_iff.1 hcode
      split at hfound
      · next hfailed =>
        exact ⟨c, rs, e, rest, code, rfl, by simpa using hcommand, hrs, he, hrest, hfailed,
          (Option.some.inj hfound).symm⟩
      · cases hfound
    · rintro ⟨c', rs, e, rest, code, hes, hcommand, hrs, he, hrest, hfailed, rfl⟩
      obtain ⟨rfl, rfl⟩ := List.cons.inj hes
      have hcode : lastStatus (rs ++ e :: rest) = some code :=
        lastStatus_eq_some_iff.2 ⟨rs, e, rest, rfl, hrs, he, hrest⟩
      rw [if_neg (by simp [hcommand]), hcode, Option.bind_some, if_pos hfailed]

theorem failedCalls_cons (e : Entry) (es : List Entry) :
    failedCalls (e :: es) = (failedCall? (e :: es)).toList ++ failedCalls es := by
  rw [failedCalls, List.tails_cons, List.filterMap_cons, ← failedCalls]
  cases failedCall? (e :: es) <;> rfl

/-- The errors of the commands of a list of tokens are the failed calls of its entries. -/
theorem filterMap_ofRun?_flatRuns (h : List.Forall₂ Token.ReadFrom ts es) :
    (flatRuns ts).filterMap ofRun? = failedCalls es := by
  induction h with
  | nil => rfl
  | @cons t e ts es hte hrest ih =>
    rw [flatRuns_cons, List.filterMap_append, ih, failedCalls_cons,
      ← ofRun?_headRun? (.cons hte hrest)]
    cases headRun? (t :: ts) with
    | none => rfl
    | some r => cases hr : ofRun? r <;> simp [hr]

end Finding

/-! ## Results -/

namespace Result

open Trace Finding

/-- **Failed server calls are reported exactly.** Whenever an output is taken apart, the errors of
server calls are, in order, one for each command of the trace whose last result before the next
command has a status code of 400 or more. Results before the first command count for none. -/
theorem failed_calls {raw : Text} {r : Result} (h : Result.ofText raw = .ok r) :
    r.errors.filter (·.kind = .serverCallFailed) = (entries raw).tails.filterMap failedCall? ∧
      ∀ es f, failedCall? es = some f ↔ ∃ c rs e rest code, es = c :: (rs ++ e :: rest) ∧
        c.isResult = false ∧ (∀ r ∈ rs, r.isResult = true) ∧ e.status? = some code ∧
          (∀ e' ∈ rest.head?, e'.isResult = false) ∧ code ≥ 400 ∧ f = ofCall c code := by
  refine ⟨?_, fun es f => failedCall?_eq_some_iff⟩
  obtain ⟨runs, hruns, herrors⟩ := errors_of_ofText h
  obtain ⟨ts, hts, rfl⟩ := map_eq_ok_iff.1 hruns
  calc r.errors.filter (·.kind = .serverCallFailed)
      = (flattenAll (forest ts)).filterMap ofRun? := by rw [herrors, filter_kind_errors, ofKind]
    _ = (flatRuns ts).filterMap ofRun? := by rw [flattenAll_forest]
    _ = failedCalls (entries raw) := filterMap_ofRun?_flatRuns (forall₂_tokensFrom hts)

/-- A result without a command, a call whose second attempt succeeds, and a call of a file whose
last command fails. -/
def retryOutput : Text :=
  "2026-01-20 10:00:00 Result (500) Early\n" ++
  "2026-01-20 10:00:01 Command:  Get Orders\n" ++
  "2026-01-20 10:00:02 Result (500) Error\n" ++
  "retrying\n" ++
  "2026-01-20 10:00:03 Result (200) OK\n" ++
  "2026-01-20 10:00:04 Command:  Call setup.mkd\n" ++
  "   2026-01-20 10:00:05 Command:  Post Orders\n" ++
  "   2026-01-20 10:00:06 Result (404) Not Found\n"

/-- Only the innermost command is reported, with its own result. -/
theorem failed_calls_retry :
    ∃ r, Result.ofText retryOutput = .ok r ∧
      r.errors.filter (·.kind = .serverCallFailed) =
        [{ kind := .serverCallFailed
           message := "Server call failed: Post Orders"
           location := some "2026-01-20 10:00:05 - Post"
           statusCode := some 404
           suggestion := some "Not found - verify the endpoint URL and entity exists." }] := by
  obtain ⟨r, hr, -⟩ := Redaction.exists_eq_ok (e := Result.ofText retryOutput)
    (p := fun _ => true) (by decide +kernel)
  refine ⟨r, hr, (failed_calls hr).1.trans ?_⟩
  rfl

end Result

end ScriptAudit
