import Mathlib.Data.List.Forall2
import ScriptAudit.Proofs.Text.Lines
import ScriptAudit.Proofs.Trace.Line
import ScriptAudit.Proofs.Trace.Nesting

/-!
# Printing and reading a trace

A forest is printed command by command, each one before those that it called. Reading the lines and
nesting them by their levels gives the forest back, whatever other lines stand between them.

* `Nested` — forests in which each command is one level below its caller.
* `Builder.closeFrom`, `Builder.take` — what the builder of a forest does when commands end.
* `closeFrom_foldl_tokens` — reading a printed forest adds its trees where the builder stands.
* `Among` — printed lines with other lines between them.
* `forest_of_printed` — the round trip.
-/

namespace ScriptAudit.Trace

/-! ## Forests -/

/-- Every root has the given level, and every other command is one level below its caller. -/
inductive Nested : (level : Nat) → List Node → Prop
  /-- There is no tree. -/
  | nil {level : Nat} : Nested level []
  /-- A tree stands before others. -/
  | cons {level : Nat} {r : Run} {calls ns : List Node} (root : r.level = level)
      (below : Nested (level + 1) calls) (beside : Nested level ns) :
      Nested level (.mk r calls :: ns)

/-- The tokens of the lines of a command, without their numbers. -/
def Run.tokens (r : Run) : List Token :=
  ⟨.command, r.level, r.timestamp, r.text, 0⟩ ::
    (r.outcome.map fun o => ⟨.result o.code, r.level, r.timestamp, o.text, 0⟩).toList

/-! ## Nesting printed commands -/

namespace Builder

/-- The builder after all commands of the given level and of deeper ones have ended. -/
def closeFrom (level : Nat) (b : Builder) : Builder :=
  closeWhile (fun above => level ≤ above.level) b.trees [] b.path

/-- The builder with finished trees handed to the innermost command under way. -/
def take (ns : List Node) (b : Builder) : Builder :=
  closeWhile (fun _ => false) b.trees ns.reverse b.path

/-- Commands may end in stages. -/
theorem closeWhile_closeWhile {p q : Run → Bool} (hpq : ∀ r, p r = true → q r = true)
    (trees calls : List Node) (path : List Frame) :
    closeWhile q (closeWhile p trees calls path).trees [] (closeWhile p trees calls path).path =
      closeWhile q trees calls path := by
  induction path generalizing calls with
  | nil => rfl
  | cons f fs ih =>
    rw [closeWhile]
    split
    · next hp => rw [ih, closeWhile.eq_2 q, if_pos (hpq f.run hp)]
    · rw [closeWhile, closeWhile]
      rfl

theorem closeFrom_closeFrom {level deeper : Nat} (h : level ≤ deeper) (b : Builder) :
    (b.closeFrom deeper).closeFrom level = b.closeFrom level := by
  refine closeWhile_closeWhile (fun r hr => ?_) b.trees [] b.path
  rw [decide_eq_true_eq] at hr ⊢
  exact Nat.le_trans h hr

/-- The builder with one more command under way. -/
def push (f : Frame) (b : Builder) : Builder := { b with path := f :: b.path }

/-- A command with its result comes below the innermost one of a lower level. -/
theorem foldl_step_tokens (r : Run) (b : Builder) :
    r.tokens.foldl step b = (b.closeFrom r.level).push ⟨r, []⟩ := by
  obtain ⟨timestamp, text, level, outcome⟩ := r
  cases outcome <;> rfl

theorem take_nil (b : Builder) : b.take [] = b := by
  obtain ⟨trees, path⟩ := b
  cases path <;> rfl

theorem take_cons (n : Node) (ns : List Node) (b : Builder) :
    b.take (n :: ns) = (b.take [n]).take ns := by
  obtain ⟨trees, path⟩ := b
  cases path <;> simp [take, closeWhile]

theorem take_push (ns : List Node) (r : Run) (b : Builder) :
    (b.push ⟨r, []⟩).take ns = b.push ⟨r, ns.reverse⟩ := by
  simp [take, push, closeWhile]

/-- All commands under way are above a level. -/
def Above (level : Nat) (b : Builder) : Prop :=
  ∀ r ∈ b.path.map Frame.run, r.level < level

namespace Above

variable {level : Nat} {b : Builder}

theorem push (h : b.Above level) {r : Run} (hr : r.level = level) (calls : List Node) :
    (b.push ⟨r, calls⟩).Above (level + 1) := by
  intro r' hr'
  rcases List.mem_cons.1 hr' with rfl | hr'
  · exact hr ▸ Nat.lt_succ_self _
  · exact Nat.lt_succ_of_lt (h r' hr')

/-- Handing over trees leaves the commands under way as they are. -/
theorem take (h : b.Above level) (ns : List Node) : (b.take ns).Above level := by
  obtain ⟨trees, path⟩ := b
  cases path <;> exact h

/-- Where no command is as deep, none ends. -/
theorem closeFrom_eq_self (h : b.Above level) : b.closeFrom level = b := by
  obtain ⟨trees, path⟩ := b
  cases path with
  | nil => rfl
  | cons f fs =>
    have hf : ¬ level ≤ f.run.level := Nat.not_le.2 (h f.run List.mem_cons_self)
    simp [closeFrom, closeWhile, hf]

/-- When the innermost command ends, its tree goes to the one that called it. -/
theorem closeFrom_push (h : b.Above level) {r : Run} (hr : r.level = level) (calls : List Node) :
    (b.push ⟨r, calls⟩).closeFrom level = b.take [.mk r calls.reverse] := by
  obtain ⟨trees, path⟩ := b
  cases path with
  | nil => simp [closeFrom, Builder.push, Builder.take, closeWhile, hr]
  | cons f fs =>
    have hf : ¬ level ≤ f.run.level := Nat.not_le.2 (h f.run List.mem_cons_self)
    simp [closeFrom, Builder.push, Builder.take, closeWhile, hr, hf]

end Above

/-- **Nesting the tokens of a forest.** Below the commands of lower levels the tokens of a printed
forest build its trees, in order. -/
theorem closeFrom_foldl_tokens {level : Nat} {ns : List Node} (hns : Nested level ns) {b : Builder}
    (hb : (b.closeFrom level).Above level) :
    (((flattenAll ns).flatMap Run.tokens).foldl step b).closeFrom level =
      (b.closeFrom level).take ns := by
  induction hns generalizing b with
  | nil =>
    rw [take_nil]
    rfl
  | @cons level r calls ns root _ _ ihcalls ihns =>
    have hsplit : (flattenAll (.mk r calls :: ns)).flatMap Run.tokens =
        r.tokens ++ ((flattenAll calls).flatMap Run.tokens ++
          (flattenAll ns).flatMap Run.tokens) := by
      simp [flattenAll, Node.flatten]
    rw [hsplit, List.foldl_append, List.foldl_append, foldl_step_tokens, root]
    generalize hbelow : ((flattenAll calls).flatMap Run.tokens).foldl step
      ((b.closeFrom level).push ⟨r, []⟩) = below
    -- the calls are read below the command, which is still under way
    have hcalls : below.closeFrom (level + 1) = (b.closeFrom level).push ⟨r, calls.reverse⟩ := by
      have hopen := hb.push root []
      have hread := ihcalls (hopen.closeFrom_eq_self.symm ▸ hopen)
      rw [hopen.closeFrom_eq_self, take_push, hbelow] at hread
      exact hread
    -- with the next command at its level it ends
    have htree : below.closeFrom level = (b.closeFrom level).take [.mk r calls] := by
      rw [← closeFrom_closeFrom (Nat.le_succ level), hcalls, hb.closeFrom_push root,
        List.reverse_reverse]
    rw [ihns (htree ▸ hb.take _), htree, ← take_cons]

end Builder

/-- The tokens of a printed forest build the forest. -/
theorem forest_tokens {ns : List Node} (h : Nested 0 ns) :
    forest ((flattenAll ns).flatMap Run.tokens) = ns := by
  have hempty : (Builder.closeFrom 0 {}).Above 0 := fun r hr => by
    simp [Builder.closeFrom, Builder.closeWhile] at hr
  have hread := Builder.closeFrom_foldl_tokens h hempty
  rw [forest, Builder.forest, ← Builder.closeWhile_closeWhile (p := fun above => 0 ≤ above.level)
    fun _ _ => rfl]
  rw [Builder.closeFrom] at hread
  rw [hread]
  simp [Builder.closeFrom, Builder.take, Builder.closeWhile]

/-! ## Reading printed lines -/

/-- The lines of a text in which printed lines stand in order; other lines, which tell nothing of a
trace, may stand anywhere between them. -/
inductive Among : (printed lines : List Text) → Prop
  /-- There is no line. -/
  | nil : Among [] []
  /-- The next line is a printed one. -/
  | printed {l : Text} {ps ls : List Text} (rest : Among ps ls) : Among (l :: ps) (l :: ls)
  /-- The next line is another one. -/
  | other {l : Text} {ps ls : List Text} (isBreak_eq_false : ∀ c ∈ l, isBreak c = false)
      (entry?_eq_none : entry? (Text.trim l) = none) (rest : Among ps ls) : Among ps (l :: ls)

/-- A token without the number of its line. -/
def Token.unplaced (t : Token) : Token := { t with line := 0 }

/-- Commands are nested by their levels, wherever their lines stand. -/
theorem forest_map_unplaced (ts : List Token) : forest (ts.map Token.unplaced) = forest ts := by
  rw [forest, List.foldl_map]
  rfl

/-- A line is read as a token. -/
def Tells (l : Text) (t : Token) : Prop :=
  ∀ number, token? number l = .ok (some { t with line := number })

theorem forall₂_tells {rs : List Run} (h : ∀ r ∈ rs, r.Printable) :
    List.Forall₂ Tells (rs.flatMap Run.print) (rs.flatMap Run.tokens) := by
  induction rs with
  | nil => exact .nil
  | cons r rs ih =>
    have hr := h r List.mem_cons_self
    rw [List.flatMap_cons, List.flatMap_cons]
    refine List.rel_append ?_ (ih fun s hs => h s (List.mem_cons_of_mem _ hs))
    refine .cons hr.token?_commandLine ?_
    cases ho : r.outcome with
    | none => exact .nil
    | some o => exact .cons (hr.token?_resultLine ho) .nil

/-- The tokens of a text are those of its printed lines. -/
theorem tokensFrom_among {ps ls : List Text} (h : Among ps ls) {us : List Token}
    (hps : List.Forall₂ Tells ps us) (number : Nat) :
    ∃ ts, tokensFrom number ls = .ok ts ∧ ts.map Token.unplaced = us.map Token.unplaced := by
  induction h generalizing us number with
  | nil =>
    cases hps
    exact ⟨[], rfl, rfl⟩
  | printed _ ih =>
    obtain _ | ⟨hl, hps⟩ := hps
    obtain ⟨ts, hts, hmap⟩ := ih hps (number + 1)
    refine ⟨_ :: ts, by rw [tokensFrom, hl number, hts]; rfl, ?_⟩
    rw [List.map_cons, List.map_cons, hmap]
    rfl
  | @other l _ _ _ hentry _ ih =>
    obtain ⟨ts, hts, hmap⟩ := ih hps (number + 1)
    have hother : token? number l = .ok none := by rw [token?, hentry]
    exact ⟨ts, by rw [tokensFrom, hother, hts]; rfl, hmap⟩

theorem Among.isBreak_eq_false {ps ls : List Text} (h : Among ps ls)
    (hps : ∀ l ∈ ps, ∀ c ∈ l, isBreak c = false) : ∀ l ∈ ls, ∀ c ∈ l, isBreak c = false := by
  induction h with
  | nil => exact hps
  | printed _ ih =>
    rw [List.forall_mem_cons] at hps ⊢
    exact ⟨hps.1, ih hps.2⟩
  | other hbreak _ _ ih =>
    rw [List.forall_mem_cons]
    exact ⟨hbreak, ih hps⟩

/-- Empty lines at the end hold no token. -/
theorem tokensFrom_append {number : Nat} {ls rest : List Text} (h : rest = [] ∨ rest = [[]]) :
    tokensFrom number (ls ++ rest) = tokensFrom number ls := by
  induction ls generalizing number with
  | nil => rcases h with rfl | rfl <;> rfl
  | cons l ls ih => rw [List.cons_append, tokensFrom, tokensFrom, ih]

/-- A line feed at the end of a text makes no difference. -/
theorem tokens_append_newline (raw : Text) : tokens (raw ++ ['\n']) = tokens raw := by
  obtain ⟨rest, hlines, hrest⟩ := Text.exists_linesFrom_append_newline raw false
  rw [tokens, Text.lines, hlines, tokensFrom_append hrest]
  rfl

theorem tokens_joinWith {ls : List Text} (h : ∀ l ∈ ls, ∀ c ∈ l, isBreak c = false) :
    tokens (Text.joinWith ['\n'] ls) = tokensFrom 1 ls := by
  cases ls with
  | nil => rfl
  | cons l ls => rw [← tokens_append_newline, tokens, Text.lines_joinWith (by simp) h]

/-! ## The round trip -/

/-- **Reading a printed trace gives its forest back.** The lines of a forest are read as its tokens,
and these build the forest, also when other lines stand between them; the commands of the forest are
the first words of their texts. -/
theorem forest_of_printed {ns : List Node} (hns : Nested 0 ns)
    (hruns : ∀ r ∈ flattenAll ns, r.Printable) {ls : List Text}
    (hls : Among ((flattenAll ns).flatMap Run.print) ls) {raw : Text}
    (hraw : raw = Text.joinWith ['\n'] ls ∨ raw = Text.joinWith ['\n'] ls ++ ['\n']) :
    (tokens raw).map forest = .ok ns ∧
      ∀ r ∈ flattenAll ns, Text.IsFirstWord r.command r.text := by
  have hbreaks : ∀ l ∈ ls, ∀ c ∈ l, isBreak c = false := by
    refine hls.isBreak_eq_false fun l hl => ?_
    obtain ⟨r, hr, hl⟩ := List.mem_flatMap.1 hl
    exact (hruns r hr).isBreak_eq_false hl
  have htokens : tokens raw = tokensFrom 1 ls := by
    rcases hraw with rfl | rfl
    · exact tokens_joinWith hbreaks
    · rw [tokens_append_newline, tokens_joinWith hbreaks]
  obtain ⟨ts, hts, hmap⟩ := tokensFrom_among hls (forall₂_tells hruns) 1
  constructor
  · rw [htokens, hts]
    show Except.ok (forest ts) = .ok ns
    rw [← forest_map_unplaced, hmap, forest_map_unplaced, forest_tokens hns]
  · intro r hr
    obtain hword | ⟨hblank, -⟩ := r.command_eq
    · exact hword
    · -- a text at both margins is not blank
      have htext := (hruns r hr).text
      obtain ⟨c, cs, hc⟩ := List.exists_cons_of_ne_nil htext.ne_nil
      have hhead := htext.isBlank_head c (by rw [hc]; rfl)
      rw [hc, Text.blank, List.all_cons, hhead] at hblank
      exact absurd hblank Bool.false_ne_true

/-- A call with a command below it, whose text looks like a result, between other lines. -/
theorem forest_of_printed_nested_call :
    (tokens ("Start\n2026-01-20 00:39:52 Command:  Call a.mkd\n\n" ++
        "   2026-01-20 00:39:53 Command:  Get /b Result (1) c\n  Command: d\n" ++
        "   2026-01-20 00:39:53 Result (404) Not found")).map forest =
      .ok [.mk ⟨"2026-01-20 00:39:52", "Call a.mkd", 0, none⟩
        [.mk ⟨"2026-01-20 00:39:53", "Get /b Result (1) c", 1, some ⟨404, "Not found"⟩⟩ []]] ∧
      ∀ r ∈ flattenAll [.mk ⟨"2026-01-20 00:39:52", "Call a.mkd", 0, none⟩
        [.mk ⟨"2026-01-20 00:39:53", "Get /b Result (1) c", 1, some ⟨404, "Not found"⟩⟩ []]],
        Text.IsFirstWord r.command r.text := by
  have hdate : IsFields '-' [4, 2, 2] "2026-01-20" :=
    @isFields_joinWith '-' ["2026", "01", "20"] (by decide)
  have hcall : Run.Printable ⟨"2026-01-20 00:39:52", "Call a.mkd", 0, none⟩ :=
    ⟨⟨"2026-01-20", "00:39:52", rfl, hdate, @isFields_joinWith ':' ["00", "39", "52"] (by decide)⟩,
      by decide, by simp⟩
  have hget : Run.Printable ⟨"2026-01-20 00:39:53", "Get /b Result (1) c", 1,
      some ⟨404, "Not found"⟩⟩ :=
    ⟨⟨"2026-01-20", "00:39:53", rfl, hdate, @isFields_joinWith ':' ["00", "39", "53"] (by decide)⟩,
      by decide, by
        rintro o ⟨⟩
        exact ⟨by decide, by decide⟩⟩
  have hnested : Nested 0 [.mk ⟨"2026-01-20 00:39:52", "Call a.mkd", 0, none⟩
      [.mk ⟨"2026-01-20 00:39:53", "Get /b Result (1) c", 1, some ⟨404, "Not found"⟩⟩ []]] :=
    .cons rfl (.cons rfl .nil .nil) .nil
  have hlines : Among
      ["2026-01-20 00:39:52 Command:  Call a.mkd".toList,
        "   2026-01-20 00:39:53 Command:  Get /b Result (1) c".toList,
        "   2026-01-20 00:39:53 Result (404) Not found".toList]
      ["Start".toList, "2026-01-20 00:39:52 Command:  Call a.mkd".toList, [],
        "   2026-01-20 00:39:53 Command:  Get /b Result (1) c".toList, "  Command: d".toList,
        "   2026-01-20 00:39:53 Result (404) Not found".toList] :=
    .other (Text.forall_mem_of_all (by decide)) rfl (.printed
      (.other (Text.forall_mem_of_all (by decide)) rfl (.printed
        (.other (Text.forall_mem_of_all (by decide)) rfl (.printed .nil)))))
  refine forest_of_printed hnested (fun r hr => ?_) hlines (Or.inl (by decide))
  rcases List.mem_cons.1 hr with rfl | hr
  · exact hcall
  · obtain rfl := List.mem_singleton.1 hr
    exact hget

end ScriptAudit.Trace
