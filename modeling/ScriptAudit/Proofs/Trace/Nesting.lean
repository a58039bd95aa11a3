import Mathlib.Data.List.Infix
import Mathlib.Data.List.TakeWhile
import ScriptAudit.Output.Trace
import ScriptAudit.Proofs.Text.Words

/-!
# Nesting loses, doubles and moves no command

`flatRuns` lists the commands of a trace without a tree: each command token with the last result
token before the next command token. The builder reaches the same list by way of its stack.

* `Builder.runs` — what a forest under construction holds, in the order of its leaves and stems: the
  finished trees, then the path from the outermost command under way to the innermost one.
* `Builder.runs_closeWhile` — ending commands changes nothing about that list.
* `Builder.Fresh` — the invariant: the innermost command under way has made no call yet, so it
  closes the list, and a result reaches the command that was begun last.
* `Builder.runs_foldl_step` — what a run of the builder adds to the list.
-/

namespace ScriptAudit.Trace

/-! ## The flat list of commands -/

/-- The outcome that a token tells, if it is a result. -/
def Token.outcome? (t : Token) : Option Outcome :=
  match t.event with
  | .command => none
  | .result code => some ⟨code, t.text⟩

/-- The last result before the next command. -/
def lastOutcome (ts : List Token) : Option Outcome :=
  ((ts.takeWhile fun t => t.outcome?.isSome).getLast?).bind Token.outcome?

/-- The command that the tokens begin with, if they begin with one. -/
def headRun? : List Token → Option Run
  | [] => none
  | t :: ts =>
    match t.event with
    | .command => some ⟨t.timestamp, t.text, t.level, lastOutcome ts⟩
    | .result _ => none

/-- The commands in the order of their tokens, each with the last result before the next one. -/
def flatRuns (ts : List Token) : List Run := ts.tails.filterMap headRun?

theorem flatRuns_cons (t : Token) (ts : List Token) :
    flatRuns (t :: ts) = (headRun? (t :: ts)).toList ++ flatRuns ts := by
  rw [flatRuns, List.tails_cons, List.filterMap_cons, ← flatRuns]
  cases headRun? (t :: ts) <;> rfl

theorem lastOutcome_of_command {t : Token} (h : t.event = .command) (ts : List Token) :
    lastOutcome (t :: ts) = none := by
  simp [lastOutcome, Token.outcome?, h]

theorem lastOutcome_of_result {t : Token} {code : Nat} (h : t.event = .result code)
    (ts : List Token) :
    lastOutcome (t :: ts) = (lastOutcome ts).or (some ⟨code, t.text⟩) := by
  have ht : t.outcome? = some ⟨code, t.text⟩ := by simp [Token.outcome?, h]
  rw [lastOutcome, List.takeWhile_cons_of_pos (by simp [ht]), List.getLast?_cons, lastOutcome]
  cases hl : (ts.takeWhile fun t => t.outcome?.isSome).getLast? with
  | none => simp [ht]
  | some u =>
    have hu : u.outcome?.isSome = true :=
      List.mem_takeWhile_imp (p := fun t : Token => t.outcome?.isSome) (List.mem_of_getLast? hl)
    obtain ⟨o, ho⟩ := Option.isSome_iff_exists.1 hu
    simp [ho]

/-! ## What a forest under construction holds -/

theorem flattenAll_append (ms ns : List Node) :
    flattenAll (ms ++ ns) = flattenAll ms ++ flattenAll ns := by
  induction ms with
  | nil => simp [flattenAll]
  | cons m ms ih => simp [flattenAll, ih]

/-- A command under way, before the calls that it has made. -/
def Frame.runs (f : Frame) : List Run := f.run :: flattenAll f.calls.reverse

namespace Builder

/-- All commands that a forest under construction holds, in order. -/
def runs (b : Builder) : List Run :=
  flattenAll b.trees.reverse ++ b.path.reverse.flatMap Frame.runs

/-- Ending commands under way keeps the commands and their order. -/
theorem runs_closeWhile (p : Run → Bool) (trees calls : List Node) (path : List Frame) :
    (closeWhile p trees calls path).runs =
      runs ⟨trees, path⟩ ++ flattenAll calls.reverse := by
  induction path generalizing calls with
  | nil => simp [closeWhile, runs, flattenAll_append]
  | cons f fs ih =>
    rw [closeWhile]
    split
    · rw [ih]
      simp [runs, Frame.runs, flattenAll, Node.flatten, flattenAll_append]
    · simp [runs, Frame.runs, flattenAll_append]

theorem path_closeWhile_true (trees calls : List Node) (path : List Frame) :
    (closeWhile (fun _ => true) trees calls path).path = [] := by
  induction path generalizing calls with
  | nil => rfl
  | cons f fs ih => rw [closeWhile, if_pos rfl, ih]

/-- The finished forest holds what the builder held. -/
theorem flattenAll_forest (b : Builder) : flattenAll b.forest = b.runs := by
  have h := runs_closeWhile (fun _ => true) b.trees [] b.path
  rw [runs, path_closeWhile_true] at h
  simpa [forest, flattenAll] using h

/-! ## One token -/

/-- The innermost command under way has made no call, and there is one once anything was read. -/
def Fresh (b : Builder) : Prop :=
  match b.path with
  | [] => b.trees = []
  | f :: _ => f.calls = []

/-- The list with the outcome of its last command replaced, if there is an outcome to put. -/
def settleLast (o : Option Outcome) (rs : List Run) : List Run :=
  match o, rs.getLast? with
  | some o, some r => rs.dropLast ++ [{ r with outcome := some o }]
  | _, _ => rs

@[simp] theorem settleLast_none (rs : List Run) : settleLast none rs = rs := rfl

@[simp] theorem settleLast_nil (o : Option Outcome) : settleLast o [] = [] := by
  cases o <;> rfl

@[simp] theorem settleLast_some_append (o : Outcome) (rs : List Run) (r : Run) :
    settleLast (some o) (rs ++ [r]) = rs ++ [{ r with outcome := some o }] := by
  simp [settleLast]

/-- Of two results the later one counts. -/
theorem settleLast_settleLast (o : Option Outcome) (o' : Outcome) (rs : List Run) :
    settleLast o (settleLast (some o') rs) = settleLast (o.or (some o')) rs := by
  rcases List.eq_nil_or_concat rs with rfl | ⟨init, r, rfl⟩
  · simp
  · cases o with
    | none => simp
    | some o => simp

theorem fresh_call (b : Builder) (r : Run) : (b.call r).Fresh := rfl

theorem runs_call (b : Builder) (r : Run) : (b.call r).runs = b.runs ++ [r] := by
  have h := runs_closeWhile (fun above => r.level ≤ above.level) b.trees [] b.path
  simp only [List.reverse_nil, flattenAll, List.append_nil] at h
  rw [← h]
  simp [call, runs, Frame.runs, flattenAll]

theorem fresh_settle {b : Builder} (hb : b.Fresh) (o : Outcome) : (b.settle o).Fresh := by
  unfold settle
  split
  · exact hb
  · next f fs hpath =>
    rw [Fresh, hpath] at hb
    exact hb

/-- A result goes to the last command of the list: the innermost one has no calls behind it. -/
theorem runs_settle {b : Builder} (hb : b.Fresh) (o : Outcome) :
    (b.settle o).runs = settleLast (some o) b.runs := by
  obtain ⟨trees, path⟩ := b
  cases path with
  | nil =>
    obtain rfl : trees = [] := hb
    rfl
  | cons f fs =>
    have hcalls : f.calls = [] := hb
    have hframe : f.runs = [f.run] := by simp [Frame.runs, hcalls, flattenAll]
    have hruns : runs ⟨trees, f :: fs⟩ =
        (flattenAll trees.reverse ++ fs.reverse.flatMap Frame.runs) ++ [f.run] := by
      simp [runs, hframe]
    rw [hruns, settleLast_some_append]
    simp [settle, runs, Frame.runs, hcalls, flattenAll]

/-! ## A run of the builder -/

/-- What a list of tokens does to the commands held: the results up to its first command settle the
last one, and its commands follow. -/
theorem runs_foldl_step (ts : List Token) {b : Builder} (hb : b.Fresh) :
    (ts.foldl step b).runs = settleLast (lastOutcome ts) b.runs ++ flatRuns ts := by
  induction ts generalizing b with
  | nil => simp [lastOutcome, flatRuns, headRun?]
  | cons t ts ih =>
    rw [List.foldl_cons, flatRuns_cons]
    cases ht : t.event with
    | command =>
      have hstep : step b t = b.call ⟨t.timestamp, t.text, t.level, none⟩ := by simp [step, ht]
      rw [hstep, ih (fresh_call _ _), runs_call, lastOutcome_of_command ht, settleLast_none]
      cases ho : lastOutcome ts <;> simp [headRun?, ht, ho]
    | result code =>
      have hstep : step b t = b.settle ⟨code, t.text⟩ := by simp [step, ht]
      rw [hstep, ih (fresh_settle hb _), runs_settle hb, settleLast_settleLast,
        lastOutcome_of_result ht]
      simp [headRun?, ht]

end Builder

/-! ## Commands -/

/-- The command of a run is the first word of its text, or a text without words. -/
theorem Run.command_eq (r : Run) :
    Text.IsFirstWord r.command r.text ∨ (Text.blank r.text = true ∧ r.command = r.text) := by
  cases h : (Text.words r.text).head? with
  | none => exact Or.inr ⟨Text.blank_of_head?_words h, by simp [command, h]⟩
  | some w => exact Or.inl (by simpa [command, h] using Text.isFirstWord_of_head?_words h)

/-- The commands of a forest are those of the flat list. -/
theorem flattenAll_forest (ts : List Token) : flattenAll (forest ts) = flatRuns ts := by
  rw [forest, Builder.flattenAll_forest, Builder.runs_foldl_step ts (b := {}) rfl]
  have hempty : Builder.runs {} = [] := rfl
  rw [hempty, Builder.settleLast_nil, List.nil_append]

/-- **Flattening undoes nesting.** For tokens in any order and of any levels, the commands of the
forest are those of the flat list: one for each command token, with its timestamp, its level and its
text, the first word of that text, and the last result before the next command. -/
theorem flattenAll_forest_eq_flatRuns (ts : List Token) :
    flattenAll (forest ts) = flatRuns ts ∧
      ∀ r : Run, Text.IsFirstWord r.command r.text ∨
        (Text.blank r.text = true ∧ r.command = r.text) :=
  ⟨flattenAll_forest ts, Run.command_eq⟩

end ScriptAudit.Trace
