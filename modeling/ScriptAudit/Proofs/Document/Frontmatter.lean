import Mathlib.Data.List.TakeWhile
import ScriptAudit.Document.Frontmatter
import ScriptAudit.Proofs.Text.Lines

/-!
# Where a body begins

`exists_cut` reads a found frontmatter as a cut of the text: what stands before the line of the
second delimiter, its dashes, the blanks that belong to it, and the body. From the cut follow the
lines of the text around the delimiter (`lines_delimited`, `exists_lines_eq`), and how far the count
of line feeds stays behind the count of lines (`bodyStart_add_strays`).
-/

namespace ScriptAudit.Frontmatter

open Text (lines strays trimRight)

/-! ## The cut -/

/-- The text up to the dashes of the second delimiter. -/
def delimited (t : Text) (f : Frontmatter) : Text :=
  trimRight (t.take (t.length - f.body.length))

/-- A text cut before the line of the second delimiter, behind its dashes and before the body. -/
structure Cut (t : Text) (f : Frontmatter) (before dashes margin : Text) : Prop where
  text_eq : t = before ++ '\n' :: (dashes ++ (margin ++ f.body))
  eq_dash : ∀ c ∈ dashes, c = '-'
  three_le : 3 ≤ dashes.length
  isBlank_margin : ∀ c ∈ margin, isBlank c = true
  body_eq : f.body = [] ∨ f.body.head? = some '\n'

/-- The blanks of a delimiter end with the text or before a line feed. -/
theorem delimiterBlanks?_eq_some {blanks taken : Text} {atEnd : Bool}
    (h : delimiterBlanks? blanks atEnd = some taken) :
    ∃ left, blanks = taken ++ left ∧ (left = [] ∧ atEnd = true ∨ left.head? = some '\n') := by
  rw [delimiterBlanks?] at h
  split_ifs at h with hend hline
  · exact ⟨[], by simpa using h, Or.inl ⟨rfl, hend⟩⟩
  · obtain rfl := Option.some.inj h
    -- the last line feed is the first one from the end
    have hmem : '\n' ∈ blanks.reverse := by simpa using hline
    obtain ⟨c, cs, hcs⟩ : ∃ c cs, blanks.reverse.dropWhile (· ≠ '\n') = c :: cs := by
      refine List.exists_cons_of_ne_nil fun hnil => ?_
      simpa using List.dropWhile_eq_nil_iff.1 hnil '\n' hmem
    have hc : c = '\n' := by
      have := List.head?_dropWhile_not (fun c : Char => decide (c ≠ '\n')) blanks.reverse
      rw [hcs] at this
      simpa using this
    subst hc
    have hsplit : blanks.reverse =
        blanks.reverse.takeWhile (· ≠ '\n') ++ '\n' :: cs := by
      rw [← hcs, List.takeWhile_append_dropWhile]
    refine ⟨'\n' :: (blanks.reverse.takeWhile (· ≠ '\n')).reverse, ?_, Or.inr rfl⟩
    rw [hcs]
    have := congrArg List.reverse hsplit
    simpa using this

/-- A delimiter is a run of dashes and blanks; the text goes on with a line feed or ends. -/
theorem delimiter?_eq_some {t : Text} {n : Nat} (h : delimiter? t = some n) :
    ∃ dashes margin, t = dashes ++ (margin ++ t.drop n) ∧ (∀ c ∈ dashes, c = '-') ∧
      3 ≤ dashes.length ∧ (∀ c ∈ margin, isBlank c = true) ∧
      (t.drop n = [] ∨ (t.drop n).head? = some '\n') := by
  let dashes := t.takeWhile (· == '-')
  let rest := t.drop dashes.length
  let blanks := rest.takeWhile isBlank
  let tail := rest.drop blanks.length
  have ht : dashes ++ rest = t := List.prefix_iff_eq_append.1 (List.takeWhile_prefix _)
  have hrest : blanks ++ tail = rest := List.prefix_iff_eq_append.1 (List.takeWhile_prefix _)
  obtain ⟨hthree, taken, htaken, rfl⟩ : 3 ≤ dashes.length ∧ ∃ taken,
      delimiterBlanks? blanks (blanks.length == rest.length) = some taken ∧
        dashes.length + taken.length = n := by
    rw [delimiter?] at h
    split_ifs at h with hlen
    exact ⟨Nat.not_lt.1 hlen, Option.map_eq_some_iff.1 h⟩
  obtain ⟨left, hblanks, hleft⟩ := delimiterBlanks?_eq_some htaken
  have hsplit : dashes ++ (taken ++ (left ++ tail)) = t := by
    rw [← ht, ← hrest, hblanks, List.append_assoc]
  have hdrop : t.drop (dashes.length + taken.length) = left ++ tail := by
    rw [← hsplit, ← List.append_assoc, ← List.length_append, List.drop_left]
  refine ⟨dashes, taken, by rw [hdrop, hsplit], ?_, hthree, ?_, ?_⟩
  · exact fun c hc => by simpa using List.mem_takeWhile_imp hc
  · intro c hc
    have hmem : c ∈ blanks := by
      rw [hblanks]
      exact List.mem_append_left _ hc
    exact List.mem_takeWhile_imp hmem
  · rw [hdrop]
    rcases hleft with ⟨rfl, hend⟩ | hleft
    · left
      have hlen : blanks.length = rest.length := by simpa using hend
      simp [tail, hlen]
    · right
      rw [List.head?_append, hleft]
      rfl

/-- The text before a found delimiter is empty at the beginning of a line, or ends in a line
feed. -/
theorem cut?_eq_some {lineStart : Bool} {t before after : Text}
    (h : cut? lineStart t = some (before, after)) :
    ∃ n rest, t = before ++ rest ∧ delimiter? rest = some n ∧ after = rest.drop n ∧
      (before = [] ∧ lineStart = true ∨ before.getLast? = some '\n') := by
  induction t generalizing lineStart before with
  | nil => simp [cut?] at h
  | cons c cs ih =>
    rw [cut?] at h
    split at h
    · next n hn =>
      obtain ⟨rfl, rfl⟩ := Prod.mk.inj (Option.some.inj h)
      cases lineStart with
      | false => simp at hn
      | true => exact ⟨n, c :: cs, rfl, by simpa using hn, rfl, Or.inl ⟨rfl, rfl⟩⟩
    · obtain ⟨⟨b, a⟩, hcut, hba⟩ := Option.map_eq_some_iff.1 h
      obtain ⟨rfl, rfl⟩ := Prod.mk.inj hba
      obtain ⟨n, rest, rfl, hn, rfl, hb⟩ := ih hcut
      refine ⟨n, rest, rfl, hn, rfl, Or.inr ?_⟩
      rcases hb with ⟨rfl, hc⟩ | hb
      · simpa using hc
      · rw [List.getLast?_cons, hb]
        rfl

/-- A found frontmatter is a cut of the text. -/
theorem exists_cut {t : Text} {f : Frontmatter} (h : split? t = some f) :
    ∃ before dashes margin, Cut t f before dashes margin := by
  rw [split?] at h
  obtain ⟨n, hn, h⟩ := Option.bind_eq_some_iff.1 h
  obtain ⟨⟨block, body⟩, hcut, h⟩ := Option.bind_eq_some_iff.1 h
  obtain rfl := Option.some.inj h
  obtain ⟨m, rest, hrest, hm, rfl, hblock⟩ := cut?_eq_some hcut
  obtain ⟨dashes, margin, hsplit, hdash, hthree, hblank, hbody⟩ := delimiter?_eq_some hm
  obtain ⟨u, rfl⟩ : ∃ u, block = u ++ ['\n'] := by
    rcases hblock with ⟨-, hfalse⟩ | hlast
    · exact absurd hfalse Bool.false_ne_true
    · exact List.getLast?_eq_some_iff.1 hlast
  refine ⟨t.take n ++ u, dashes, margin, ?_, hdash, hthree, hblank, hbody⟩
  calc t = t.take n ++ t.drop n := (List.take_append_drop n t).symm
    _ = t.take n ++ (u ++ ['\n'] ++ (dashes ++ (margin ++ rest.drop m))) := by rw [hrest, ← hsplit]
    _ = t.take n ++ u ++ '\n' :: (dashes ++ (margin ++ rest.drop m)) := by simp

/-! ## Lines around the delimiter -/

namespace Cut

variable {t : Text} {f : Frontmatter} {before dashes margin : Text}

theorem isBreak_dashes (h : Cut t f before dashes margin) : ∀ c ∈ dashes, isBreak c = false := by
  intro c hc
  rw [h.eq_dash c hc]
  decide

theorem dashes_ne_nil (h : Cut t f before dashes margin) : dashes ≠ [] := by
  rintro rfl
  exact absurd h.three_le (by simp)

theorem delimited_eq (h : Cut t f before dashes margin) :
    delimited t f = before ++ '\n' :: dashes := by
  have ht : t = (before ++ '\n' :: dashes ++ margin) ++ f.body := by simpa using h.text_eq
  have htake : t.take (t.length - f.body.length) = before ++ '\n' :: dashes ++ margin := by
    rw [ht, List.length_append, Nat.add_sub_cancel, List.take_left]
  have hlast : (before ++ '\n' :: dashes).reverse.dropWhile isBlank =
      (before ++ '\n' :: dashes).reverse := by
    obtain ⟨d, ds, hds⟩ := List.exists_cons_of_ne_nil (List.reverse_ne_nil_iff.2 h.dashes_ne_nil)
    obtain rfl : d = '-' := h.eq_dash d (List.mem_reverse.1 (hds ▸ List.mem_cons_self))
    rw [List.reverse_append, List.reverse_cons, hds]
    rfl
  rw [delimited, htake, trimRight, List.reverse_append,
    List.dropWhile_append_of_pos fun c hc => h.isBlank_margin c (List.mem_reverse.1 hc), hlast,
    List.reverse_reverse]

/-- The line of the delimiter is the last one of its text. -/
theorem lines_delimited (h : Cut t f before dashes margin) :
    lines (delimited t f) = lines (before ++ ['\n']) ++ [dashes] := by
  have hdashes : lines dashes = [dashes] := by
    simpa [lines, Text.linesFrom] using
      Text.lines_append_of_forall h.dashes_ne_nil h.isBreak_dashes []
  rw [h.delimited_eq, Text.lines_newline_append, hdashes]

/-- Blanks before a line feed or the end of the text put only blanks on their first line. -/
theorem isBlank_of_mem_headD_lines {s : Text} (hs : s = [] ∨ s.head? = some '\n') {m : Text}
    (hm : ∀ c ∈ m, isBlank c = true) : ∀ c ∈ (lines (m ++ s)).headD [], isBlank c = true := by
  induction m with
  | nil =>
    rcases hs with rfl | hs
    · simp [lines, Text.linesFrom]
    · obtain ⟨rest, rfl⟩ : ∃ rest, s = '\n' :: rest := by
        cases s with
        | nil => simp at hs
        | cons c rest => exact ⟨rest, by simpa using hs⟩
      simp [lines, Text.linesFrom, isBreak]
  | cons c m ih =>
    have hc : isBlank c = true := hm c List.mem_cons_self
    have ih := ih fun d hd => hm d (List.mem_cons_of_mem _ hd)
    cases hb : isBreak c with
    | true => simp [Text.lines_break hb]
    | false =>
      rw [List.cons_append, lines, Text.linesFrom_of_isBreak_eq_false hb, List.headD_cons]
      intro d hd
      rcases List.mem_cons.1 hd with rfl | hd
      · exact hc
      · exact ih d hd

/-- The lines of the text go on behind the dashes of the delimiter. -/
theorem exists_lines_eq (h : Cut t f before dashes margin) :
    ∃ rim rest, lines t = lines (before ++ ['\n']) ++ (dashes ++ rim) :: rest ∧
      ∀ c ∈ rim, isBlank c = true := by
  refine ⟨(lines (margin ++ f.body)).headD [], (lines (margin ++ f.body)).tail, ?_,
    isBlank_of_mem_headD_lines h.body_eq h.isBlank_margin⟩
  rw [congrArg lines h.text_eq, Text.lines_newline_append,
    Text.lines_append_of_forall h.dashes_ne_nil h.isBreak_dashes]

end Cut

/-! ## The first line of the body -/

/-- Line feeds alone are counted, so every stray line end leaves the body one line too early. -/
theorem bodyStart_add_strays {t : Text} {f : Frontmatter} (h : split? t = some f) :
    f.bodyStart t + strays (delimited t f) = (lines (delimited t f)).length := by
  obtain ⟨before, dashes, margin, hcut⟩ := exists_cut h
  have hcount : (delimited t f).count '\n' = (before ++ ['\n']).count '\n' := by
    have hdashes : dashes.count '\n' = 0 := by
      refine List.count_eq_zero.2 fun hmem => ?_
      exact absurd (hcut.eq_dash _ hmem) (by decide)
    rw [hcut.delimited_eq]
    simp [hdashes]
  have hstrays : strays (delimited t f) = strays (before ++ ['\n']) := by
    rw [hcut.delimited_eq, Text.strays_newline_append,
      Text.strays_eq_zero_of_forall hcut.isBreak_dashes, Nat.add_zero]
  rw [hcut.lines_delimited, List.length_append, Text.length_lines_newline, hstrays, ← hcount]
  show (delimited t f).count '\n' + 1 + _ = _
  simp only [List.length_singleton]
  omega

/-- The body begins within the text. -/
theorem bodyStart_le_length_lines {t : Text} {f : Frontmatter} (h : split? t = some f) :
    f.bodyStart t ≤ (lines t).length := by
  obtain ⟨before, dashes, margin, hcut⟩ := exists_cut h
  obtain ⟨rim, rest, hlines, -⟩ := hcut.exists_lines_eq
  have hstart := bodyStart_add_strays h
  rw [hcut.lines_delimited] at hstart
  rw [hlines]
  simp only [List.length_append, List.length_cons, List.length_nil] at hstart ⊢
  omega

end ScriptAudit.Frontmatter
