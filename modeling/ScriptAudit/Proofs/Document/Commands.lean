import ScriptAudit.Proofs.Document.Blocks
import ScriptAudit.Proofs.Document.Sections
import ScriptAudit.Yaml.Standard

/-!
# Commands on the lines of a document

Reading a code block passes over lines, and over whole bodies. Here commands are tied to the lines
they were read from.

* `Command.BodyAt` — the lines that the body of a command takes; `BodyAt.unique`: there is only one
  such range.
* `Script.Reads` — reading line by line, with one case for each kind of line, and
  `Script.reads_commandsFrom`: this is what `commandsFrom` does.
* `Reads.placed`, `Reads.pairwise`, `Reads.complete` — what is read stands where it says, in order,
  and nothing is left out.
* `Document.commands_cover_scripts` — what this says of a document that was read.
-/

namespace ScriptAudit

/-! ## The place of a command -/

namespace Command

/-- The command is what its line says, apart from the body. -/
def At (lines : List Text) (c : Command) : Prop :=
  ∃ l, lines[c.line - 1]? = some l ∧ Script.isIdle l = false ∧
    ofLine? (Text.trim l) c.line = some { c with body := none }

/-- The body of a command takes the lines of the range `r`; between the command and its body stand
blank lines and comments only. -/
structure BodyAt (lines : List Text) (c : Command) (r : Nat × Nat) : Prop where
  line_lt : c.line < r.1
  le : r.1 ≤ r.2
  le_length : r.2 ≤ lines.length
  isIdle_between : ∀ n, c.line < n → n < r.1 → ∀ l, lines[n - 1]? = some l → Script.isIdle l = true
  isIdle_first : ∀ l, lines[r.1 - 1]? = some l → Script.isIdle l = false
  body_eq : c.body = some (Text.joinWith ['\n'] (slice lines r))

theorem ofLine?_eq_some {t : Text} {n : Nat} {c : Command} (h : ofLine? t n = some c) :
    c.text = t ∧ c.line = n ∧ c.body = none := by
  rw [ofLine?] at h
  obtain ⟨k, -, h⟩ := Option.bind_eq_some_iff.1 h
  obtain rfl := Option.some.inj h
  exact ⟨rfl, rfl, rfl⟩

/-- A command that is read from a line stands there, whatever body it gets. -/
theorem at_of_ofLine?_eq_some {lines : List Text} {before : Nat} {l : Text}
    (hl : lines[before]? = some l) (hidle : Script.isIdle l = false) {c : Command}
    (hc : ofLine? (Text.trim l) (before + 1) = some c) (body : Option Text) :
    At lines { c with body } := by
  obtain ⟨-, hline, hbody⟩ := ofLine?_eq_some hc
  have hbare : { c with body := none } = c := by rw [← hbody]
  refine ⟨l, ?_, hidle, ?_⟩
  · show lines[c.line - 1]? = some l
    rw [hline, Nat.add_sub_cancel, hl]
  · show ofLine? (Text.trim l) c.line = some { c with body := none }
    rw [hbare, hline, hc]

namespace BodyAt

variable {lines lines' : List Text} {c : Command} {r r' : Nat × Nat}

/-- No body begins behind the first line that is not passed over. -/
theorem first_le (hidle : lines.map Script.isIdle = lines'.map Script.isIdle) (h : BodyAt lines c r)
    (h' : BodyAt lines' c r') : r'.1 ≤ r.1 := by
  by_contra hlt
  have hlength : lines.length = lines'.length := by
    simpa only [List.length_map] using congrArg List.length hidle
  have hinside : r.1 - 1 < lines.length := by
    have := h.line_lt
    have := h.le
    have := h.le_length
    omega
  have hl := List.getElem?_eq_getElem hinside
  have hl' := List.getElem?_eq_getElem (hlength ▸ hinside)
  have hsame := congrArg (·[r.1 - 1]?) hidle
  simp only [List.getElem?_map, hl, hl', Option.map_some, Option.some.injEq] at hsame
  rw [h.isIdle_first _ hl, h'.isIdle_between r.1 h.line_lt (Nat.not_le.1 hlt) _ hl'] at hsame
  exact Bool.false_ne_true hsame

theorem length_slice (h : BodyAt lines c r) : (slice lines r).length = r.2 - (r.1 - 1) := by
  rw [slice, List.length_drop, List.length_take, Nat.min_eq_left h.le_length]

/-- No line holds a line feed, so the lines of a body are found again in its text. -/
theorem splitAt_joinWith_slice (hlines : ∀ l ∈ lines, '\n' ∉ l) (h : BodyAt lines c r) :
    Text.splitAt '\n' (Text.joinWith ['\n'] (slice lines r)) = slice lines r := by
  refine Text.splitAt_joinWith (fun hnil => ?_) fun l hl =>
    hlines l (List.mem_of_mem_take (List.mem_of_mem_drop hl))
  have hzero := h.length_slice
  rw [hnil, List.length_nil] at hzero
  have := h.line_lt
  have := h.le
  omega

/-- Where the same lines are passed over, a body begins on the first line behind the command that is
not, and its text tells how many lines it takes. -/
theorem eq_of_isIdle_eq (hidle : lines.map Script.isIdle = lines'.map Script.isIdle)
    (hlines : ∀ l ∈ lines, '\n' ∉ l) (hlines' : ∀ l ∈ lines', '\n' ∉ l) (h : BodyAt lines c r)
    (h' : BodyAt lines' c r') : r = r' := by
  have hfirst : r.1 = r'.1 := Nat.le_antisymm (h'.first_le hidle.symm h) (h.first_le hidle h')
  have hjoin := Option.some.inj (h.body_eq.symm.trans h'.body_eq)
  have hslice : slice lines r = slice lines' r' := by
    rw [← h.splitAt_joinWith_slice hlines, hjoin, h'.splitAt_joinWith_slice hlines']
  have hlast : r.2 = r'.2 := by
    have hlength := congrArg List.length hslice
    rw [h.length_slice, h'.length_slice, hfirst] at hlength
    have := h.le
    have := h'.le
    have := h'.line_lt
    omega
  exact Prod.ext hfirst hlast

/-- The body of a command has one place. -/
theorem unique (hlines : ∀ l ∈ lines, '\n' ∉ l) (h : BodyAt lines c r) (h' : BodyAt lines c r') :
    r = r' :=
  h.eq_of_isIdle_eq rfl hlines hlines h'

end BodyAt

end Command

/-! ## Reading line by line -/

namespace Script

open Command (At BodyAt ofLine?)

/-- Reading the lines behind line `s` up to line `last` gives these commands. -/
inductive Reads (lines : List Text) (last : Nat) : (s : Nat) → List Command → Prop
  /-- No line is left. -/
  | done : Reads lines last last []
  /-- The line is passed over. -/
  | pass {s : Nat} {l : Text} {cs : List Command} (hl : lines[s]? = some l)
      (h : isIdle l = true ∨ ofLine? (Text.trim l) (s + 1) = none)
      (rest : Reads lines last (s + 1) cs) : Reads lines last s cs
  /-- The line is a command without a body. -/
  | bare {s : Nat} {c : Command} {cs : List Command} (hc : At lines c) (hline : c.line = s + 1)
      (hbody : c.body = none) (rest : Reads lines last (s + 1) cs) : Reads lines last s (c :: cs)
  /-- The line is a command with a body, behind which reading goes on. -/
  | full {s : Nat} {c : Command} {cs : List Command} {r : Nat × Nat} (hc : At lines c)
      (hline : c.line = s + 1) (hbody : BodyAt lines c r) (rest : Reads lines last r.2 cs) :
      Reads lines last s (c :: cs)

/-- Balanced lines are some of the lines, from the first one on. -/
theorem balanced?_eq_some {depth : Int} {ls body : List Text} (h : balanced? depth ls = some body) :
    ∃ l more rest, body = l :: more ∧ ls = body ++ rest := by
  induction ls generalizing depth body with
  | nil => simp [balanced?] at h
  | cons l ls ih =>
    rw [balanced?] at h
    split at h
    · obtain rfl := Option.some.inj h
      exact ⟨l, [], ls, rfl, rfl⟩
    · obtain ⟨more, hmore, rfl⟩ := Option.map_eq_some_iff.1 h
      obtain ⟨-, -, rest, -, rfl⟩ := ih hmore
      exact ⟨l, more, rest, rfl, rfl⟩

/-- A body stands behind lines that are passed over, and begins on one that is not. -/
theorem body?_eq_some {ls body : List Text} {k : Nat} (h : body? ls = some (k, body)) :
    ∃ idle l more rest, ls = idle ++ (body ++ rest) ∧ idle.length = k ∧
      (∀ l ∈ idle, isIdle l = true) ∧ body = l :: more ∧ isIdle l = false := by
  let idle := ls.takeWhile isIdle
  have hls : idle ++ ls.drop idle.length = ls :=
    List.prefix_iff_eq_append.1 (List.takeWhile_prefix _)
  have hdrop : ls.drop idle.length = ls.dropWhile isIdle := by
    have := (List.takeWhile_append_dropWhile (p := isIdle) (l := ls)).trans hls.symm
    exact (List.append_cancel_left this).symm
  have hbalanced : (balanced? 0 (ls.drop idle.length)).map (fun b => (idle.length, b)) =
      some (k, body) := by
    rw [body?] at h
    split at h
    · cases h
    · split at h
      · exact h
      · exact h
      · cases h
  obtain ⟨b, hb, heq⟩ := Option.map_eq_some_iff.1 hbalanced
  obtain ⟨rfl, rfl⟩ := Prod.mk.inj heq
  obtain ⟨l, more, rest, rfl, hrest⟩ := balanced?_eq_some hb
  refine ⟨idle, l, more, rest, by rw [← hrest, hls], rfl, fun l hl => List.mem_takeWhile_imp hl,
    rfl, ?_⟩
  have hhead := List.head?_dropWhile_not isIdle ls
  rw [← hdrop, hrest] at hhead
  simpa using hhead

/-- Lines that belong to the last command are dropped. -/
theorem commandsFrom_eq_drop (k : Nat) (ls : List (Nat × Text)) :
    commandsFrom k ls = commandsFrom 0 (ls.drop k) := by
  induction ls generalizing k with
  | nil => cases k <;> simp [commandsFrom]
  | cons p ls ih =>
    cases k with
    | zero => rfl
    | succ k => rw [commandsFrom, ih, List.drop_succ_cons]

section

variable {n : Nat} {l : Text} (ls : List (Nat × Text))

theorem commandsFrom_pass (h : isIdle l = true ∨ ofLine? (Text.trim l) n = none) :
    commandsFrom 0 ((n, l) :: ls) = commandsFrom 0 ls := by
  rw [commandsFrom]
  by_cases hidle : isIdle l = true
  · rw [if_pos hidle]
  · rw [if_neg hidle, h.resolve_left hidle]

variable {c : Command} (hidle : isIdle l = false) (hc : ofLine? (Text.trim l) n = some c)
include hidle hc

theorem commandsFrom_bare (h : body? (ls.map Prod.snd) = none) :
    commandsFrom 0 ((n, l) :: ls) = c :: commandsFrom 0 ls := by
  rw [commandsFrom, if_neg (by simp [hidle]), hc]
  simp only [h]

/-- Reading goes on behind the body. -/
theorem commandsFrom_full {k : Nat} {body : List Text}
    (h : body? (ls.map Prod.snd) = some (k, body)) :
    commandsFrom 0 ((n, l) :: ls) =
      { c with body := some (Text.joinWith ['\n'] body) } ::
        commandsFrom 0 (ls.drop (k + body.length)) := by
  rw [commandsFrom, if_neg (by simp [hidle]), hc]
  simp only [h]
  rw [commandsFrom_eq_drop]

end

/-- Lines behind a command that are passed over, with a body behind them. -/
theorem bodyAt_of_slice {lines : List Text} {last : Nat} (hlast : last ≤ lines.length) {c : Command}
    {idle more rest : List Text} {first : Text}
    (h : slice lines (c.line + 1, last) = idle ++ (first :: more ++ rest))
    (hidle : ∀ l ∈ idle, isIdle l = true) (hfirst : isIdle first = false)
    (hbody : c.body = some (Text.joinWith ['\n'] (first :: more))) :
    let k := c.line + idle.length
    BodyAt lines c (k + 1, k + (first :: more).length) ∧ k + (first :: more).length ≤ last ∧
      slice lines (k + (first :: more).length + 1, last) = rest := by
  intro k
  obtain ⟨hfront, hback⟩ := slice_eq_append h
  obtain ⟨htaken, hrest⟩ := slice_eq_append hback
  have hlength := congrArg List.length h
  rw [length_slice hlast, List.length_append, List.length_append] at hlength
  have hpos : 0 < (first :: more).length := Nat.succ_pos _
  have hle : k + (first :: more).length ≤ last := by omega
  refine ⟨⟨?_, ?_, hle.trans hlast, ?_, ?_, ?_⟩, hle, hrest⟩
  · show c.line < c.line + idle.length + 1
    omega
  · show k + 1 ≤ k + (first :: more).length
    omega
  · intro n hn hn' l hl
    obtain ⟨i, hi⟩ : ∃ i, n - 1 = c.line + i := ⟨n - 1 - c.line, by omega⟩
    have hilt : c.line + i < k := by
      have : n < k + 1 := hn'
      omega
    rw [hi, ← getElem?_slice hilt, hfront] at hl
    exact hidle l (List.mem_of_getElem? hl)
  · intro l hl
    have hl' : lines[k + 0]? = some l := hl
    have hzero : k + 0 < k + (first :: more).length := by omega
    rw [← getElem?_slice hzero, htaken] at hl'
    obtain rfl : first = l := Option.some.inj hl'
    exact hfirst
  · rw [hbody, htaken]

/-- `commandsFrom` reads line by line. -/
theorem reads_commandsFrom {lines : List Text} {last : Nat} (hlast : last ≤ lines.length) {s : Nat}
    (hs : s ≤ last) :
    Reads lines last s (commandsFrom 0 (numbered (s + 1) (slice lines (s + 1, last)))) := by
  obtain ⟨k, hk⟩ : ∃ k, last - s = k := ⟨_, rfl⟩
  induction k using Nat.strong_induction_on generalizing s with
  | _ k ih =>
    rcases Nat.eq_or_lt_of_le hs with rfl | hlt
    · rw [slice_eq_take_drop, Nat.sub_self]
      exact .done
    obtain ⟨l, hl⟩ : ∃ l, lines[s]? = some l := ⟨_, List.getElem?_eq_getElem (by omega)⟩
    have hrest := ih (last - (s + 1)) (by omega) hlt rfl
    rw [slice_eq_cons hlt hl, numbered]
    by_cases hpass : isIdle l = true ∨ ofLine? (Text.trim l) (s + 1) = none
    · rw [commandsFrom_pass _ hpass]
      exact .pass hl hpass hrest
    obtain ⟨hidle, c, hc⟩ : isIdle l = false ∧ ∃ c, ofLine? (Text.trim l) (s + 1) = some c := by
      rw [not_or, Bool.not_eq_true, ← ne_eq, Option.ne_none_iff_exists'] at hpass
      exact hpass
    obtain ⟨-, hline, hbody⟩ := Command.ofLine?_eq_some hc
    have hat := Command.at_of_ofLine?_eq_some hl hidle hc
    cases hb : body? (slice lines (s + 1 + 1, last)) with
    | none =>
      rw [commandsFrom_bare _ hidle hc (by rw [map_snd_numbered, hb])]
      refine .bare ?_ hline hbody hrest
      have := hat none
      rwa [← hbody] at this
    | some found =>
      obtain ⟨idles, body⟩ := found
      obtain ⟨idle, first, more, rest, hsplit, rfl, hidles, rfl, hfirst⟩ := body?_eq_some hb
      obtain ⟨filled, hfilled, hfline, hfbody⟩ : ∃ filled : Command,
          { c with body := some (Text.joinWith ['\n'] (first :: more)) } = filled ∧
            filled.line = s + 1 ∧ filled.body = some (Text.joinWith ['\n'] (first :: more)) :=
        ⟨_, rfl, hline, rfl⟩
      have hatFilled := hat (some (Text.joinWith ['\n'] (first :: more)))
      have hdrop : (slice lines (s + 1 + 1, last)).drop (idle.length + (first :: more).length) =
          rest := by
        rw [hsplit, ← List.append_assoc, ← List.length_append, List.drop_left]
      rw [commandsFrom_full _ hidle hc (by rw [map_snd_numbered, hb]), drop_numbered, hdrop, hfilled]
      rw [hfilled] at hatFilled
      rw [← hfline] at hsplit ⊢
      obtain ⟨hrange, hle, hafter⟩ := bodyAt_of_slice hlast hsplit hidles hfirst hfbody
      have hback := ih _ (by omega) hle rfl
      rw [hafter] at hback
      have hnumber : filled.line + 1 + (idle.length + (first :: more).length) =
          filled.line + idle.length + (first :: more).length + 1 := by
        omega
      rw [hnumber]
      exact .full hatFilled hfline hrange hback

/-! ## What was read -/

namespace Reads

variable {lines : List Text} {last s : Nat} {cs : List Command}

theorem le (h : Reads lines last s cs) : s ≤ last := by
  induction h with
  | done => exact Nat.le_refl last
  | pass _ _ _ ih => omega
  | bare _ _ _ _ ih => omega
  | full _ hline hbody _ ih =>
    have := hbody.line_lt
    have := hbody.le
    omega

/-- A command stands on its line, and its body behind it, among the lines that are read. -/
theorem placed (h : Reads lines last s cs) :
    ∀ c ∈ cs, s < c.line ∧ c.line ≤ last ∧ At lines c ∧
      (c.body = none ∨ ∃ r, BodyAt lines c r ∧ r.2 ≤ last) := by
  induction h with
  | done => simp
  | pass _ _ _ ih =>
    intro c hc
    obtain ⟨hs, hrest⟩ := ih c hc
    exact ⟨by omega, hrest⟩
  | bare hat hline hbody rest ih =>
    intro c hc
    rcases List.mem_cons.1 hc with rfl | hc
    · have := rest.le
      exact ⟨by omega, by omega, hat, Or.inl hbody⟩
    · obtain ⟨hs, hrest⟩ := ih c hc
      exact ⟨by omega, hrest⟩
  | full hat hline hbody rest ih =>
    have hle := rest.le
    have hlt := hbody.line_lt
    have hle' := hbody.le
    intro c hc
    rcases List.mem_cons.1 hc with rfl | hc
    · exact ⟨by omega, by omega, hat, Or.inr ⟨_, hbody, hle⟩⟩
    · obtain ⟨hs, hrest⟩ := ih c hc
      exact ⟨by omega, hrest⟩

/-- A body ends among the lines that are read. -/
theorem le_of_bodyAt (hlines : ∀ l ∈ lines, '\n' ∉ l) (h : Reads lines last s cs) {c : Command}
    (hc : c ∈ cs) {r : Nat × Nat} (hr : BodyAt lines c r) : r.2 ≤ last := by
  obtain ⟨-, -, -, hnone | ⟨r', hr', hle⟩⟩ := h.placed c hc
  · rw [hr.body_eq] at hnone
    cases hnone
  · rw [hr.unique hlines hr']
    exact hle

/-- Commands are read in order, each behind the body of the one before it. -/
theorem pairwise (hlines : ∀ l ∈ lines, '\n' ∉ l) (h : Reads lines last s cs) :
    cs.Pairwise fun c c' => c.line < c'.line ∧ ∀ r, BodyAt lines c r → r.2 < c'.line := by
  induction h with
  | done => exact List.Pairwise.nil
  | pass _ _ _ ih => exact ih
  | bare _ hline hbody rest ih =>
    refine List.pairwise_cons.2 ⟨fun c' hc' => ⟨?_, fun r hr => ?_⟩, ih⟩
    · have := (rest.placed c' hc').1
      omega
    · rw [hr.body_eq] at hbody
      cases hbody
  | full _ hline hbody rest ih =>
    refine List.pairwise_cons.2 ⟨fun c' hc' => ⟨?_, fun r hr => ?_⟩, ih⟩
    · have := (rest.placed c' hc').1
      have := hbody.line_lt
      have := hbody.le
      omega
    · rw [hr.unique hlines hbody]
      exact (rest.placed c' hc').1

/-- A line that is a command is read as one, unless it belongs to the body of another. -/
theorem complete (h : Reads lines last s cs) {n : Nat} {l : Text} (hs : s < n) (hn : n ≤ last)
    (hl : lines[n - 1]? = some l) (hidle : isIdle l = false)
    (hcommand : ofLine? (Text.trim l) n ≠ none) :
    ∃ c ∈ cs, c.line = n ∨ ∃ r, BodyAt lines c r ∧ r.1 ≤ n ∧ n ≤ r.2 := by
  induction h with
  | done => omega
  | @pass s l' cs hl' h rest ih =>
    rcases Nat.eq_or_lt_of_le (Nat.succ_le_of_lt hs) with rfl | hs
    · -- the line itself was passed over
      obtain rfl : l' = l := by
        rw [Nat.succ_sub_one, hl'] at hl
        exact Option.some.inj hl
      rcases h with h | h
      · rw [h] at hidle
        exact absurd hidle.symm Bool.false_ne_true
      · exact absurd h hcommand
    · exact ih hs
  | @bare s c cs _ hline _ rest ih =>
    rcases Nat.eq_or_lt_of_le (Nat.succ_le_of_lt hs) with rfl | hs
    · exact ⟨c, List.mem_cons_self, Or.inl hline⟩
    · obtain ⟨c', hc', h⟩ := ih hs
      exact ⟨c', List.mem_cons_of_mem _ hc', h⟩
  | @full s c cs r _ hline hbody rest ih =>
    by_cases hafter : r.2 < n
    · obtain ⟨c', hc', h⟩ := ih hafter
      exact ⟨c', List.mem_cons_of_mem _ hc', h⟩
    by_cases hinside : r.1 ≤ n
    · exact ⟨c, List.mem_cons_self, Or.inr ⟨r, hbody, hinside, Nat.not_lt.1 hafter⟩⟩
    refine ⟨c, List.mem_cons_self, Or.inl ?_⟩
    by_contra hne
    have hpassed := hbody.isIdle_between n (by omega) (Nat.not_le.1 hinside) l hl
    rw [hidle] at hpassed
    exact Bool.false_ne_true hpassed

end Reads

end Script

/-! ## The commands of all blocks -/

/-- How commands lie on the lines of a document whose body begins behind line `start`. -/
structure CommandCover (start : Nat) (lines : List Text) (cs : List Command) : Prop where
  /-- Commands come in order, one on a line. -/
  increasing : cs.Pairwise fun c c' => c.line < c'.line
  /-- A command stands on its line, in a block that holds commands. -/
  located : ∀ c ∈ cs, Command.At lines c ∧
    ∃ f l, Content start lines f c.line l ∧ f.opensScript = true ∧ Text.trim l = c.text
  /-- A body has one place. -/
  existsUnique_bodyAt : ∀ c ∈ cs, c.body ≠ none → ∃! r, Command.BodyAt lines c r
  /-- The lines from a command to the end of its body stand in one block. -/
  bodyAt_inside : ∀ c ∈ cs, ∀ r, Command.BodyAt lines c r →
    ∃ f, f.opensScript = true ∧ ∀ n, c.line ≤ n → n ≤ r.2 → ∃ l, Content start lines f n l
  /-- A body ends above the commands behind it. -/
  bodyAt_above : cs.Pairwise fun c c' => ∀ r, Command.BodyAt lines c r → r.2 < c'.line
  /-- A line that is a command is read as one, unless it stands in a body. -/
  complete : ∀ f n l, Content start lines f n l → f.opensScript = true →
    Script.isIdle l = false → Command.ofLine? (Text.trim l) n ≠ none →
      (∀ c ∈ cs, ∀ r, Command.BodyAt lines c r → ¬ (r.1 ≤ n ∧ n ≤ r.2)) →
        ∃! c, c ∈ cs ∧ c.line = n

namespace Script

open Command (At BodyAt ofLine?)

variable {start : Nat} {lines : List Text}

theorem reads_commands {b : CodeBlock} {before last : Nat} (h : b.Spans lines before last) :
    Reads lines last before (commands b) := by
  rw [commands, h.lines_eq]
  exact reads_commandsFrom h.le_length h.le

theorem exists_spans_of_mem_scriptBlocks (hstart : start ≤ lines.length) {b : CodeBlock}
    (hb : b ∈ scriptBlocks (Line.ofLines start lines)) :
    ∃ before last, b.Spans lines before last :=
  exists_spans_of_mem_codeBlocks hstart (List.mem_filter.1 hb).1

theorem exists_block_of_mem_commands (hstart : start ≤ lines.length) {c : Command}
    (hc : c ∈ (scriptBlocks (Line.ofLines start lines)).flatMap commands) :
    ∃ b before last, b ∈ scriptBlocks (Line.ofLines start lines) ∧ b.Spans lines before last ∧
      c ∈ commands b := by
  obtain ⟨b, hb, hc⟩ := List.mem_flatMap.1 hc
  obtain ⟨before, last, hspans⟩ := exists_spans_of_mem_scriptBlocks hstart hb
  exact ⟨b, before, last, hb, hspans, hc⟩

/-- Every line of a block stands inside of its fence. -/
theorem exists_content {b : CodeBlock} (hb : b ∈ scriptBlocks (Line.ofLines start lines))
    {before last : Nat} (hspans : b.Spans lines before last) {n : Nat} (hn : before < n)
    (hn' : n ≤ last) : ∃ l, Content start lines b.fence n l := by
  have hlt : n - 1 < lines.length := by
    have := hspans.le_length
    omega
  have hl := List.getElem?_eq_getElem hlt
  exact ⟨_, content_iff_exists_block.2
    ⟨b, (List.mem_filter.1 hb).1, rfl, hspans.mem_lines.2 ⟨hn, hn', hl⟩⟩⟩

/-- The commands of all blocks come in order, each behind the body of the one before it. -/
theorem pairwise_commands (hlines : ∀ l ∈ lines, '\n' ∉ l) (hstart : start ≤ lines.length) :
    ((scriptBlocks (Line.ofLines start lines)).flatMap commands).Pairwise fun c c' =>
      c.line < c'.line ∧ ∀ r, BodyAt lines c r → r.2 < c'.line := by
  have hblocks := (pairwise_codeBlocks start lines).filter (·.fence.opensScript)
  refine List.pairwise_flatMap.2 ⟨fun b hb => ?_, hblocks.imp_of_mem fun {b b'} hb hb' hlt => ?_⟩
  · obtain ⟨before, last, hspans⟩ := exists_spans_of_mem_scriptBlocks hstart hb
    exact (reads_commands hspans).pairwise hlines
  · intro c hc c' hc'
    obtain ⟨before, last, hspans⟩ := exists_spans_of_mem_scriptBlocks hstart hb
    obtain ⟨before', last', hspans'⟩ := exists_spans_of_mem_scriptBlocks hstart hb'
    obtain ⟨hbefore, hlast, -⟩ := (reads_commands hspans).placed c hc
    obtain ⟨hbefore', hlast', -⟩ := (reads_commands hspans').placed c' hc'
    -- every line of the one block stands above every line of the other
    have habove {n : Nat} (hn : before < n) (hn' : n ≤ last) : n < c'.line := by
      have hle := hspans.le_length
      have hle' := hspans'.le_length
      have hl := List.getElem?_eq_getElem (show n - 1 < lines.length by omega)
      have hl' := List.getElem?_eq_getElem (show c'.line - 1 < lines.length by omega)
      exact hlt _ (hspans.mem_lines.2 ⟨hn, hn', hl⟩) _
        (hspans'.mem_lines.2 ⟨hbefore', hlast', hl'⟩)
    refine ⟨habove hbefore hlast, fun r hr => ?_⟩
    have := hr.line_lt
    have := hr.le
    exact habove (by omega) ((reads_commands hspans).le_of_bodyAt hlines hc hr)

/-- Where lines increase, there is one command on a line. -/
theorem eq_of_line_eq {cs : List Command} (h : cs.Pairwise fun c c' => c.line < c'.line)
    {c c' : Command} (hc : c ∈ cs) (hc' : c' ∈ cs) (heq : c.line = c'.line) : c = c' :=
  List.Pairwise.forall_of_forall_of_flip (R := fun c c' => c.line = c'.line → c = c')
    (fun _ _ _ => rfl) (h.imp fun hlt heq => absurd heq (Nat.ne_of_lt hlt))
    (h.imp fun hlt heq => absurd heq (Nat.ne_of_gt hlt)) hc hc' heq

/-- The commands of the script blocks cover their lines. -/
theorem commandCover_scriptBlocks (hlines : ∀ l ∈ lines, '\n' ∉ l) (hstart : start ≤ lines.length) :
    CommandCover start lines ((scriptBlocks (Line.ofLines start lines)).flatMap commands) where
  increasing := (pairwise_commands hlines hstart).imp And.left
  located := by
    intro c hc
    obtain ⟨b, before, last, hb, hspans, hc⟩ := exists_block_of_mem_commands hstart hc
    obtain ⟨hbefore, hlast, hat, -⟩ := (reads_commands hspans).placed c hc
    obtain ⟨l, hcontent⟩ := exists_content hb hspans hbefore hlast
    refine ⟨hat, b.fence, l, hcontent, (List.mem_filter.1 hb).2, ?_⟩
    obtain ⟨l', hl', -, hread⟩ := hat
    obtain rfl : l' = l := Option.some.inj (hl'.symm.trans hcontent.getElem?_eq)
    exact (Command.ofLine?_eq_some hread).1.symm
  existsUnique_bodyAt := by
    intro c hc hbody
    obtain ⟨b, before, last, -, hspans, hc⟩ := exists_block_of_mem_commands hstart hc
    obtain ⟨-, -, -, hnone | ⟨r, hr, -⟩⟩ := (reads_commands hspans).placed c hc
    · exact absurd hnone hbody
    · exact ⟨r, hr, fun r' hr' => hr'.unique hlines hr⟩
  bodyAt_inside := by
    intro c hc r hr
    obtain ⟨b, before, last, hb, hspans, hc⟩ := exists_block_of_mem_commands hstart hc
    have hbefore := ((reads_commands hspans).placed c hc).1
    have hle := (reads_commands hspans).le_of_bodyAt hlines hc hr
    exact ⟨b.fence, (List.mem_filter.1 hb).2, fun n hn hn' =>
      exists_content hb hspans (by omega) (by omega)⟩
  bodyAt_above := (pairwise_commands hlines hstart).imp And.right
  complete := by
    intro f n l hl hf hidle hcommand hout
    obtain ⟨b, hb, rfl, hmem⟩ := content_iff_exists_block.1 hl
    have hscript : b ∈ scriptBlocks (Line.ofLines start lines) := List.mem_filter.2 ⟨hb, hf⟩
    obtain ⟨before, last, hspans⟩ := exists_spans_of_mem_scriptBlocks hstart hscript
    obtain ⟨hbefore, hlast, hl⟩ := hspans.mem_lines.1 hmem
    obtain ⟨c, hc, hfound⟩ := (reads_commands hspans).complete hbefore hlast hl hidle hcommand
    have hcs : c ∈ (scriptBlocks (Line.ofLines start lines)).flatMap commands :=
      List.mem_flatMap.2 ⟨b, hscript, hc⟩
    rcases hfound with hline | ⟨r, hr, hinside⟩
    · refine ⟨c, ⟨hcs, hline⟩, ?_⟩
      rintro c' ⟨hcs', hline'⟩
      exact eq_of_line_eq ((pairwise_commands hlines hstart).imp And.left) hcs' hcs
        (hline'.trans hline.symm)
    · exact absurd hinside (hout c hcs r hr)

end Script

namespace Document

/-- **No command is lost, doubled or misplaced.** In every document that is read, the commands stand
in order on lines of the blocks that hold commands, and each line of such a block that is a command
is read as one unless it stands in a body. -/
theorem commands_cover_scripts [Yaml.Loader] {text : Text} {d : Document} (h : read text = .ok d) :
    ∃ m start, head (withoutMark text) = .ok (m, start) ∧
      CommandCover start (Text.lines (withoutMark text)) d.commands := by
  obtain ⟨m, start, hhead, rfl⟩ := read_eq_ok h
  exact ⟨m, start, hhead, Script.commandCover_scriptBlocks
    (fun l => Text.lineFeed_notMem_of_mem_lines) (head_le_length_lines hhead)⟩

/-- Behind a byte order mark, a body of two lines after a comment, a bracket that is not balanced, and
a block that is not closed. -/
def unclosedBlock : Text :=
  "\uFEFF```\nGet /a\n// note\n[1,\n2]\nPost /b\n[\n```\n~~~ tar\nDelete /c\n".toList

/-- The mark does not hide the fence behind it. -/
theorem commands_cover_unclosed_block :
    ∃ d, read unclosedBlock = .ok d ∧
      d.commands.map (fun c => (c.line, c.body)) =
        [(2, some "[1,\n2]".toList), (6, none), (10, none)] ∧
      ∃ m start, head (withoutMark unclosedBlock) = .ok (m, start) ∧
        CommandCover start (Text.lines (withoutMark unclosedBlock)) d.commands := by
  have h : read unclosedBlock = .ok (ofBody none 0 (withoutMark unclosedBlock)) := rfl
  exact ⟨_, h, by decide +kernel, commands_cover_scripts h⟩

end Document

end ScriptAudit
