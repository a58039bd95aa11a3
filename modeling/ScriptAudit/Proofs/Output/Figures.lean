import ScriptAudit.Output.Finding
import ScriptAudit.Output.Report
import ScriptAudit.Proofs.Text.Letter
import ScriptAudit.Proofs.Text.Search
import ScriptAudit.Proofs.Trace.Line

/-!
# Figures in front of the error output

The error output follows the output behind `Statistics.separator`. Whatever it holds, the counters,
the status line, the path and the averages of the output are found as before
(`labelled_endsBefore` and the like): none of them reads beyond the dashes of the separator. The
heading of the report is the exception, since the dashes can be taken for the name after a type of
tests; but a heading that is found stays the same (`search_heading_append`).
-/

namespace ScriptAudit

open Recogniser (EndsBefore)
open Statistics (separator)

/-- The separator is a line of its own that begins with dashes. -/
theorem Statistics.separator_append (e : Text) :
    separator ++ e = '\n' :: '-' :: ("-- STDERR ---\n".toList ++ e) := rfl

/-! ## Gaps -/

namespace Trace

/-- A gap in front of something else than blanks is the same with any text behind it. -/
theorem gap?_append_of_not_blank {t : Text} (ht : Text.blank t = false) (s : Text) :
    gap? (t ++ s) = (gap? t).map fun g => (g.1, g.2 ++ s) := by
  obtain ⟨c, hc, hblank⟩ : ∃ c ∈ t, isBlank c = false := by simpa [Text.blank] using ht
  obtain ⟨u, v, rfl⟩ := List.append_of_mem hc
  have hsame : (u ++ c :: v ++ s).takeWhile isBlank = (u ++ c :: v).takeWhile isBlank := by
    rw [List.append_assoc, List.cons_append, Text.takeWhile_append_cons hblank,
      Text.takeWhile_append_cons hblank]
  have hle : ((u ++ c :: v).takeWhile isBlank).length ≤ (u ++ c :: v).length :=
    (List.takeWhile_prefix _).length_le
  rw [gap?, gap?, hsame, List.drop_append_of_le_length hle]
  split <;> rfl

theorem gap?_of_blank {t : Text} (ht : Text.blank t = true) :
    gap? t = if t.isEmpty then none else some (t, []) := by
  have hself : t.takeWhile isBlank = t :=
    List.takeWhile_eq_self_iff.2 fun c hc => List.all_eq_true.1 ht c hc
  rw [gap?, hself]
  simp

/-- Blanks at the end of a text go on into the line end behind it. -/
theorem gap?_append_newline {t : Text} (ht : Text.blank t = true) {c : Char}
    (hc : isBlank c = false) (s : Text) :
    gap? (t ++ '\n' :: c :: s) = some (t ++ ['\n'], c :: s) := by
  have hall : ∀ d ∈ t ++ ['\n'], isBlank d = true := by
    intro d hd
    rcases List.mem_append.1 hd with hd | hd
    · exact List.all_eq_true.1 ht d hd
    · rw [List.mem_singleton.1 hd]
      decide
  rw [← List.singleton_append, ← List.append_assoc]
  exact gap?_append (t ++ ['\n']) (by simp) hall (by simpa using hc)

end Trace

variable {e : Text}

namespace Report

/-! ## Counters -/

/-- A label, a gap behind it, and what is read of the rest: it is the same in front of the error
output, unless the dashes there or the end of the text tell something by themselves. -/
theorem bind_gap?_append {α : Type} {label : Text} {next : Text × Text → Option α}
    (hlabel : '\n' ∉ label)
    (hend : ∀ blanks, (∀ c ∈ blanks, isBlank c = true) → next (blanks, []) = none)
    (hdash : ∀ blanks, (∀ c ∈ blanks, isBlank c = true) →
      next (blanks, '-' :: ("-- STDERR ---\n".toList ++ e)) = none)
    (hsame : ∀ blanks rest, next (blanks, rest ++ (separator ++ e)) = next (blanks, rest))
    (t : Text) :
    ((Text.after? label (t ++ (separator ++ e))).bind fun t => (Trace.gap? t).bind next) =
      (Text.after? label t).bind fun t => (Trace.gap? t).bind next := by
  rw [Statistics.separator_append, Text.after?_append_cons hlabel, ← Statistics.separator_append]
  cases Text.after? label t with
  | none => rfl
  | some t =>
    rw [Option.map_some, Option.bind_some, Option.bind_some]
    cases ht : Text.blank t with
    | true =>
      have hblank : ∀ c ∈ t, isBlank c = true := List.all_eq_true.1 ht
      have hline : ∀ c ∈ t ++ ['\n'], isBlank c = true := by
        intro c hc
        rcases List.mem_append.1 hc with hc | hc
        · exact hblank c hc
        · rw [List.mem_singleton.1 hc]
          decide
      rw [Statistics.separator_append, Trace.gap?_append_newline ht (by decide),
        Trace.gap?_of_blank ht, Option.bind_some, hdash _ hline]
      split
      · rfl
      · exact (hend t hblank).symm
    | false =>
      rw [Trace.gap?_append_of_not_blank ht]
      cases Trace.gap? t with
      | none => rfl
      | some g => exact hsame g.1 g.2

/-- A labelled figure is found in the output as if nothing followed it. -/
theorem labelled_endsBefore {label : Text} {p : Char → Bool} (hlabel : '\n' ∉ label)
    (hbreak : p '\n' = false) (hdash : p '-' = false) :
    (labelled label p).EndsBefore (separator ++ e) := by
  intro before t _
  refine bind_gap?_append hlabel (fun _ _ => rfl) (fun _ _ => ?_) (fun _ rest => ?_) t
  · simp [hdash]
  · simp only [Statistics.separator_append, Text.takeWhile_append_cons hbreak]

theorem exceptionCount_endsBefore : exceptionCount.EndsBefore (separator ++ e) :=
  (labelled_endsBefore (by decide) (by decide) (by decide)).orElse
    (labelled_endsBefore (by decide) (by decide) (by decide))

/-! ## The status line -/

theorem endsLine_append (t s : Text) : endsLine (t ++ '\n' :: s) = endsLine t := by
  have hlength := Text.length_takeWhile_add isBlank t
  simp only [endsLine]
  by_cases h : ∀ c ∈ t, isBlank c = true
  · rw [List.takeWhile_append_of_pos h, List.takeWhile_eq_self_iff.2 h]
    simp [isBlank]
  · -- the run of blanks ends in the text
    obtain ⟨c, cs, hc⟩ : ∃ c cs, t.dropWhile isBlank = c :: cs := by
      refine List.exists_cons_of_ne_nil fun hnil => h (List.dropWhile_eq_nil_iff.1 hnil)
    have hblank : isBlank c = false :=
      Text.eq_false_of_mem_head?_dropWhile (t := t) (by rw [hc]; rfl)
    have hsame : (t ++ '\n' :: s).takeWhile isBlank = t.takeWhile isBlank := by
      conv_lhs => rw [← List.takeWhile_append_dropWhile (p := isBlank) (l := t), hc,
        List.append_assoc, List.cons_append]
      exact Text.takeWhile_append_of_head? (fun d hd => List.mem_takeWhile_imp hd) (by simpa)
    have hlt : (t.takeWhile isBlank).length < t.length := by
      rw [← hlength, hc, List.length_cons]
      omega
    have hne : (t.takeWhile isBlank).length ≠ (t ++ '\n' :: s).length := by
      rw [List.length_append]
      omega
    rw [hsame, decide_eq_false hne, decide_eq_false hlt.ne]

theorem statusLine_endsBefore : statusLine.EndsBefore (separator ++ e) := by
  intro before t _
  simp only [statusLine, Statistics.separator_append]
  congr 1
  rw [Text.trimLeft_append]
  cases ht : Text.blank t with
  | true =>
    rw [Text.trimLeft_of_blank ht]
    rfl
  | false =>
    rw [if_neg Bool.false_ne_true]
    congr 1
    funext s
    have hname : '\n' ∉ s.name := by cases s <;> decide
    rw [Text.after?_append_cons hname]
    cases Text.after? s.name (Text.trimLeft t) with
    | none => rfl
    | some rest =>
      simp only [Option.map_some, endsLine_append]

/-! ## The path -/

theorem pathAfter?_append_cons (blanks t s : Text) :
    pathAfter? blanks (t ++ '\n' :: s) = pathAfter? blanks t := by
  induction blanks with
  | nil => rfl
  | cons b bs ih =>
    rw [pathAfter?, pathAfter?, ih, ← List.append_assoc, Text.takeWhile_append_cons (by decide)]

/-- An extension stands behind the first character or nowhere. -/
theorem beforeExtension?_eq_none_iff {c : Char} {cs : Text} :
    beforeExtension? (c :: cs) = none ↔ ¬ ".mkd".toList <:+: cs := by
  induction cs generalizing c with
  | nil => exact iff_of_true rfl (by decide)
  | cons d ds ih =>
    rw [beforeExtension?, List.infix_cons_iff, not_or, ← Text.isSome_after?_iff_prefix, ← ih (c := d)]
    cases beforeExtension? (d :: ds) with
    | some stem => simp
    | none => cases (Text.after? ".mkd" (d :: ds)).isSome <;> simp

/-- The extension that is found is the last one. -/
theorem beforeExtension?_eq_some_iff {t stem : Text} : beforeExtension? t = some stem ↔
    stem ≠ [] ∧ ∃ rest, t = stem ++ (".mkd".toList ++ rest) ∧ ¬ ".mkd".toList <:+: rest := by
  have hbehind {rest : Text} : ".mkd".toList <:+: 'm' :: 'k' :: 'd' :: rest ↔
      ".mkd".toList <:+: rest := by
    simp [List.infix_cons_iff, List.cons_prefix_cons]
  constructor
  · intro h
    induction t generalizing stem with
    | nil => cases h
    | cons c cs ih =>
      rw [beforeExtension?] at h
      split at h
      · next stem' hdeeper =>
        obtain rfl := Option.some.inj h
        obtain ⟨-, rest, rfl, hrest⟩ := ih hdeeper
        exact ⟨List.cons_ne_nil c stem', rest, rfl, hrest⟩
      · next hdeeper =>
        split at h
        · next hstart =>
          obtain rfl := Option.some.inj h
          obtain ⟨rest, rfl⟩ := Text.isSome_after?_iff_prefix.1 hstart
          exact ⟨List.cons_ne_nil c [], rest, rfl,
            fun hrest => beforeExtension?_eq_none_iff.1 hdeeper (hbehind.2 hrest)⟩
        · cases h
  · rintro ⟨hne, rest, rfl, hrest⟩
    induction stem with
    | nil => exact absurd rfl hne
    | cons c stem ih =>
      rw [List.cons_append, beforeExtension?]
      cases stem with
      | nil =>
        have hnone : beforeExtension? (".mkd".toList ++ rest) = none :=
          beforeExtension?_eq_none_iff.2 fun h => hrest (hbehind.1 h)
        rw [List.nil_append, hnone, if_pos (Text.isSome_after?_iff_prefix.2 (List.prefix_append _ rest))]
      | cons d stem => rw [ih (List.cons_ne_nil d stem)]

/-- No extension stands in blanks, or at the head of a line without one. -/
theorem beforeExtension?_append {blanks t : Text} (hblanks : ∀ c ∈ blanks, isBlank c = true)
    (ht : beforeExtension? t = none) (hhead : Text.after? ".mkd" t = none) :
    beforeExtension? (blanks ++ t) = none ∧ Text.after? ".mkd" (blanks ++ t) = none := by
  induction blanks with
  | nil => exact ⟨ht, hhead⟩
  | cons b bs ih =>
    obtain ⟨hnone, hstart⟩ := ih fun c hc => hblanks c (List.mem_cons_of_mem b hc)
    have hb : b ≠ '.' := by
      rintro rfl
      have := hblanks '.' List.mem_cons_self
      simp [isBlank] at this
    refine ⟨?_, ?_⟩
    · rw [List.cons_append, beforeExtension?, hnone, hstart]
      rfl
    · show Text.after? ('.' :: _) (b :: _) = none
      rw [Text.after?, if_neg (Ne.symm hb)]

theorem pathAfter?_eq_none {blanks t : Text} (hblanks : ∀ c ∈ blanks, isBlank c = true)
    (ht : beforeExtension? (t.takeWhile (· ≠ '\n')) = none)
    (hhead : Text.after? ".mkd" (t.takeWhile (· ≠ '\n')) = none) : pathAfter? blanks t = none := by
  induction blanks with
  | nil => rfl
  | cons b bs ih =>
    have hbs : ∀ c ∈ bs, isBlank c = true := fun c hc => hblanks c (List.mem_cons_of_mem b hc)
    rw [pathAfter?, ih hbs]
    suffices h : beforeExtension? ((bs ++ t).takeWhile (· ≠ '\n')) = none by rw [h]; rfl
    by_cases hline : ∀ c ∈ bs, decide (c ≠ '\n') = true
    · rw [List.takeWhile_append_of_pos hline]
      exact (beforeExtension?_append hbs ht hhead).1
    · -- the line ends in the blanks
      obtain ⟨u, v, rfl⟩ : ∃ u v, bs = u ++ '\n' :: v := by
        push Not at hline
        obtain ⟨c, hc, hc'⟩ := hline
        obtain rfl : c = '\n' := by simpa using hc'
        exact List.append_of_mem hc
      have hu : ∀ c ∈ u.takeWhile (· ≠ '\n'), isBlank c = true := fun c hc =>
        hbs c (List.mem_append_left _ ((List.takeWhile_sublist _).subset hc))
      rw [List.append_assoc, List.cons_append, Text.takeWhile_append_cons (by decide)]
      simpa using (beforeExtension?_append (t := []) hu rfl rfl).1

theorem path_endsBefore : path.EndsBefore (separator ++ e) := by
  intro before t _
  refine bind_gap?_append (by decide) (fun blanks hblanks => ?_) (fun blanks hblanks => ?_)
    (fun blanks rest => ?_) t
  · show (pathAfter? blanks [] >>= fun p => pure (p, 1)) = none
    rw [pathAfter?_eq_none hblanks rfl rfl]
    rfl
  · show (pathAfter? blanks ('-' :: _) >>= fun p => pure (p, 1)) = none
    rw [pathAfter?_eq_none hblanks rfl rfl]
    rfl
  · show (pathAfter? blanks (rest ++ (separator ++ e)) >>= fun p => pure (p, 1)) =
      (pathAfter? blanks rest >>= fun p => pure (p, 1))
    rw [Statistics.separator_append, pathAfter?_append_cons]

/-! ## The heading -/

/-- What words begin with: one of the types of tests, and a name. -/
def headed? (types : List Text) : List Text → Option ((Text × Text) × Nat)
  | type :: name :: _ => if type ∈ types then some ((type, name), 1) else none
  | _ => none

/-- Finds a type of tests and the word after it behind the left margin. -/
def typed? (type t : Text) : Option ((Text × Text) × Nat) :=
  (Text.after? type (Text.trimLeft t)).bind fun rest => (Trace.gap? rest).bind fun g =>
    if (g.2.takeWhile (!isBlank ·)).isEmpty then none
    else some ((type, g.2.takeWhile (!isBlank ·)), 1)

/-- A type of tests is a whole word, and its name is the next word. -/
theorem typed?_eq {type : Text} (hne : type ≠ []) (htype : ∀ c ∈ type, isBlank c = false)
    (t : Text) : typed? type t = headed? [type] (Text.words t) := by
  rw [← Text.words_trimLeft t, typed?]
  cases hafter : Text.after? type (Text.trimLeft t) with
  | none =>
    have hother : ∀ word words, Text.words (Text.trimLeft t) = word :: words → word ≠ type := by
      rintro word words hwords rfl
      cases ht : Text.trimLeft t with
      | nil => simp [ht, Text.words, Text.words.go] at hwords
      | cons c cs =>
        have hc : isBlank c = false :=
          Text.isBlank_head_dropWhile (t := t) (by rw [← Text.trimLeft, ht]; rfl)
        rw [ht, Text.words_cons hc] at hwords
        obtain ⟨hword, -⟩ := List.cons.inj hwords
        have hcut := List.takeWhile_append_dropWhile (p := fun c => !isBlank c) (l := c :: cs)
        rw [hword] at hcut
        rw [ht, ← hcut, Text.after?_append] at hafter
        cases hafter
    cases hwords : Text.words (Text.trimLeft t) with
    | nil => rfl
    | cons word words => cases words <;> simp [headed?, hother word _ hwords]
  | some rest =>
    have hnonblank : ∀ c ∈ type, (!isBlank c) = true := fun c hc => by simp [htype c hc]
    have hwords : Text.words (Text.trimLeft t) =
        (type ++ rest.takeWhile (!isBlank ·)) :: Text.words (rest.dropWhile (!isBlank ·)) := by
      rw [Text.eq_append_of_after? hafter, ← List.takeWhile_append_of_pos hnonblank,
        ← List.dropWhile_append_of_pos hnonblank]
      obtain ⟨d, ds, rfl⟩ := List.exists_cons_of_ne_nil hne
      exact Text.words_cons (htype d List.mem_cons_self) _
    rw [hwords, Option.bind_some, Trace.gap?, Text.drop_length_takeWhile, ← Text.trimLeft]
    cases rest with
    | nil => rfl
    | cons c cs =>
      cases hc : isBlank c with
      | true =>
        have hrest : (c :: cs).dropWhile (!isBlank ·) = c :: cs := by simp [hc]
        rw [hrest, ← Text.words_trimLeft (c :: cs)]
        cases hname : Text.trimLeft (c :: cs) with
        | nil => simp [hc, headed?, Text.words, Text.words.go]
        | cons d ds =>
          have hd : isBlank d = false :=
            Text.isBlank_head_dropWhile (t := c :: cs) (by rw [← Text.trimLeft, hname]; rfl)
          rw [Text.words_cons hd]
          simp [hc, hd, headed?]
      | false =>
        have hlonger : type ++ (c :: cs).takeWhile (!isBlank ·) ≠ type := by simp [hc]
        rw [List.takeWhile_cons, hc, if_neg Bool.false_ne_true, List.isEmpty_nil, if_pos rfl,
          Option.bind_none]
        cases Text.words ((c :: cs).dropWhile (!isBlank ·)) <;> simp [headed?, hlonger]

/-- A heading is a type of tests, which is a whole word, and the word after it. -/
theorem heading_eq (before : Option Char) (t : Text) :
    heading before t =
      if lineStarts before then headed? testTypes (Text.words t) else none := by
  have htypes {types : List Text}
      (h : types.all (fun type => !type.isEmpty && type.all (!isBlank ·)) = true) :
      types.findSome? (typed? · t) = headed? types (Text.words t) := by
    induction types with
    | nil => rcases Text.words t with _ | ⟨_, _ | ⟨_, _⟩⟩ <;> simp [headed?]
    | cons type types ih =>
      rw [List.all_cons, Bool.and_eq_true] at h
      obtain ⟨⟨hne, hblank⟩, hrest⟩ :
          (type ≠ [] ∧ ∀ c ∈ type, isBlank c = false) ∧ types.all _ = true :=
        ⟨by simpa using h.1, h.2⟩
      rw [List.findSome?_cons, typed?_eq hne hblank, ih hrest]
      rcases Text.words t with _ | ⟨word, _ | ⟨name, words⟩⟩
      · rfl
      · rfl
      · by_cases hword : word = type <;> simp [headed?, hword]
  rw [heading, ← htypes (by decide)]
  cases lineStarts before <;> rfl

/-- Where there is at most one word, there is no heading. -/
theorem search_heading_of_words {t : Text} (h : (Text.words t).length ≤ 1) (before : Option Char) :
    heading.search before t = none := by
  induction t generalizing before with
  | nil => rfl
  | cons c cs ih =>
    have hnone : heading before (c :: cs) = none := by
      rw [heading_eq]
      rcases hwords : Text.words (c :: cs) with _ | ⟨_, _ | ⟨_, _⟩⟩
      · simp [headed?]
      · simp [headed?]
      · simp [hwords] at h
    rw [Recogniser.search, hnone]
    exact ih ((Text.length_words_tail_le c cs).trans h) (some c)

/-- A heading in the output is found whatever the error output is. -/
theorem search_heading_append {before : Option Char} {t : Text} {head : Text × Text}
    (h : heading.search before t = some head) :
    heading.search before (t ++ (separator ++ e)) = some head := by
  induction t generalizing before with
  | nil => simp [Recogniser.search] at h
  | cons c cs ih =>
    -- a single word at the end of the output heads nothing there
    obtain ⟨type, name, words, hwords⟩ : ∃ type name words,
        Text.words (c :: cs) = type :: name :: words := by
      rcases hwords : Text.words (c :: cs) with _ | ⟨type, _ | ⟨name, words⟩⟩
      · rw [search_heading_of_words (by simp [hwords])] at h
        cases h
      · rw [search_heading_of_words (by simp [hwords])] at h
        cases h
      · exact ⟨type, name, words, rfl⟩
    have hboth : Text.words (c :: (cs ++ (separator ++ e))) =
        type :: name :: (words ++ Text.words ('-' :: ("-- STDERR ---\n".toList ++ e))) := by
      rw [← List.cons_append, Statistics.separator_append, Text.words_append_cons (by decide),
        hwords]
      rfl
    have hsame : heading before (c :: (cs ++ (separator ++ e))) = heading before (c :: cs) := by
      rw [heading_eq, heading_eq, hboth, hwords]
      rfl
    rw [Recogniser.search] at h
    rw [List.cons_append, Recogniser.search, hsame]
    cases hfound : heading before (c :: cs) with
    | some find => rwa [hfound] at h
    | none =>
      rw [hfound] at h
      exact ih h

end Report

/-! ## Averages -/

namespace Finding

theorem quotedAverage_eq (before : Option Char) (t : Text) : quotedAverage before t =
    (Text.after? "\"Avg\":" t).bind fun rest =>
      (Text.after? ['"'] (Text.trimLeft rest)).bind fun ds =>
        (Text.after? ['"'] (ds.dropWhile isDecimal)).bind fun left =>
          if (ds.takeWhile isDecimal).isEmpty then none
          else some (ds.takeWhile isDecimal, t.length - left.length) := by
  simp only [← Text.drop_length_takeWhile]
  rfl

theorem quotedAverage_endsBefore : quotedAverage.EndsBefore (separator ++ e) := by
  intro before t _
  rw [quotedAverage_eq, quotedAverage_eq, Statistics.separator_append,
    Text.after?_append_cons (by decide)]
  cases Text.after? "\"Avg\":" t with
  | none => rfl
  | some rest =>
    rw [Option.map_some, Option.bind_some, Option.bind_some, Text.trimLeft_append]
    cases hrest : Text.blank rest with
    | true =>
      rw [Text.trimLeft_of_blank hrest]
      rfl
    | false =>
      rw [if_neg Bool.false_ne_true, Text.after?_append_cons (by decide)]
      cases Text.after? ['"'] (Text.trimLeft rest) with
      | none => rfl
      | some ds =>
        rw [Option.map_some, Option.bind_some, Option.bind_some,
          Text.dropWhile_append_cons (by decide), Text.takeWhile_append_cons (by decide),
          Text.after?_append_cons (by decide)]
        cases Text.after? ['"'] (ds.dropWhile isDecimal) with
        | none => rfl
        | some left =>
          rw [Option.map_some, Option.bind_some, Option.bind_some, List.length_append,
            List.length_append, Nat.add_sub_add_right]

/-- An average uses up no more than there is. -/
theorem quotedAverage_le {before : Option Char} {t ds : Text} {n : Nat}
    (h : quotedAverage before t = some (ds, n)) : n ≤ t.length := by
  simp only [quotedAverage, Option.bind_eq_bind, Option.bind_eq_some_iff] at h
  obtain ⟨_, _, _, _, rest, _, h⟩ := h
  split at h
  · cases h
  · cases h
    exact Nat.sub_le _ _

end Finding

end ScriptAudit
