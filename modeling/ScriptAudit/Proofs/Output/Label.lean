import ScriptAudit.Proofs.Output.Figures

/-!
# Labels and the gaps behind them

The figures of a report are found by their labels, each with a gap behind it that may reach into
the next line. What stands in front of a label is passed over as long as it does not hold the label
itself, or holds it with something else behind it than the label is looked for with.

* `Report.gapped` — a label with a gap behind it.
* `Report.Apart` — texts whose rests all differ from the label (`passes_of_apart`).
* `Report.passes_word` — words, which may hold the label.
* `Report.passes_row` — lines that end in a word.
-/

namespace ScriptAudit.Report

/-! ## Labels -/

/-- A line with a margin. -/
def row (margin : Nat) (t : Text) : Text := Text.copies margin ' ' ++ (t ++ ['\n'])

section Labels

variable {α : Type} {label u rest : Text} {next : Text × Text → Option (α × Nat)}

/-- Finds a label and a gap behind it, and reads on from there. -/
def gapped (label : Text) (next : Text × Text → Option (α × Nat)) : Recogniser α :=
  fun _ t => (Text.after? label t).bind fun t => (Trace.gap? t).bind next

/-- Reads a run of characters of a class. -/
def readRun (p : Char → Bool) (g : Text × Text) : Option (Text × Nat) :=
  if (g.2.takeWhile p).isEmpty then none else some (g.2.takeWhile p, 1)

/-- Reads a path. -/
def readPath (g : Text × Text) : Option (Text × Nat) :=
  (pathAfter? g.1 g.2).bind fun p => some (p, 1)

theorem labelled_eq (label : Text) (p : Char → Bool) : labelled label p = gapped label (readRun p) :=
  rfl

theorem path_eq : path = gapped "file:" readPath := rfl

theorem gapped_eq_none (h : ¬ label <+: u) (before : Option Char) :
    gapped label next before u = none := by
  rw [gapped, Option.eq_none_iff_forall_ne_some.2 fun t ht =>
    h ⟨t, (Text.eq_append_of_after? ht).symm⟩]
  rfl

/-- Whether no rest of a text agrees with the beginning of a label as far as either goes. -/
def Apart (label u : Text) : Prop := ∀ w ∈ u.tails, w ≠ [] → ¬ w <+: label ∧ ¬ label <+: w

instance (label u : Text) : Decidable (Apart label u) := inferInstanceAs (Decidable (∀ _ ∈ _, _))

theorem passes_of_apart (h : Apart label u) : (gapped label next).Passes u rest := by
  intro before w hw hne
  refine gapped_eq_none (fun hlabel => ?_) before
  obtain ⟨hshort, hlong⟩ := h w ((List.mem_tails _ _).2 hw) hne
  rcases List.prefix_or_prefix_of_prefix hlabel (List.prefix_append w rest) with h | h
  · exact hlong h
  · exact hshort h

theorem apart_of_notMem {a : Char} (hlabel : label.head? = some a) (ha : a ∉ u) :
    Apart label u := by
  intro w hw hne
  obtain ⟨c, cs, rfl⟩ := List.exists_cons_of_ne_nil hne
  obtain ⟨b, bs, rfl⟩ := List.exists_cons_of_ne_nil (l := label) (by rintro rfl; cases hlabel)
  obtain rfl : b = a := Option.some.inj hlabel
  have hc : b ≠ c := by
    rintro rfl
    exact ha (((List.mem_tails _ _).1 hw).subset List.mem_cons_self)
  exact ⟨fun h => hc (List.cons_prefix_cons.1 h).1.symm, fun h => hc (List.cons_prefix_cons.1 h).1⟩

/-- A label is not found where its first character is missing. -/
theorem passes_of_notMem {a : Char} (hlabel : label.head? = some a) (ha : a ∉ u) :
    (gapped label next).Passes u rest :=
  passes_of_apart (apart_of_notMem hlabel ha)

/-- A label that goes on within a word has no gap behind it, and one that ends a line reads on at
the next one. -/
theorem passes_word (hlabel : '\n' ∉ label) (hu : ∀ c ∈ u, isBlank c = false)
    (hnext : ∀ g ∈ Trace.gap? ('\n' :: rest), next g = none) :
    (gapped label next).Passes u ('\n' :: rest) := by
  intro before w hw _
  rw [gapped, Text.after?_append_cons hlabel]
  cases hafter : Text.after? label w with
  | none => rfl
  | some t =>
    rw [Option.map_some, Option.bind_some]
    cases t with
    | nil =>
      rw [List.nil_append]
      cases hgap : Trace.gap? ('\n' :: rest) with
      | none => rfl
      | some g => exact hnext g hgap
    | cons c t =>
      have hc : isBlank c = false := by
        refine hu c (hw.subset ?_)
        rw [Text.eq_append_of_after? hafter]
        exact List.mem_append_right _ List.mem_cons_self
      rw [List.cons_append, Trace.gap?, List.takeWhile_cons_of_neg (by simp [hc])]
      rfl

/-- A label that does not occur in some lines is not found there. -/
theorem passes_lines (hlabel : '\n' ∉ label) (hu : ¬ label <:+: u)
    (hend : u = [] ∨ u.getLast? = some '\n') : (gapped label next).Passes u rest := by
  rintro before w ⟨x, rfl⟩ hne
  have hlast : w.getLast? = some '\n' := by
    rcases hend with h | h
    · exact absurd (List.append_eq_nil_iff.1 h).2 hne
    · rwa [List.getLast?_append_of_ne_nil _ hne] at h
  obtain ⟨v, rfl⟩ := List.getLast?_eq_some_iff.1 hlast
  refine gapped_eq_none (fun hprefix => hu ?_) before
  have hv : label <+: v := by
    rw [List.append_assoc, List.singleton_append] at hprefix
    obtain ⟨t, ht⟩ := hprefix
    cases hafter : Text.after? label v with
    | none =>
      have hnone := Text.after?_append_cons hlabel v rest
      rw [← ht, Text.after?_append, hafter] at hnone
      cases hnone
    | some t => exact ⟨t, (Text.eq_append_of_after? hafter).symm⟩
  exact hv.isInfix.trans (List.infix_append x v ['\n'] |>.trans (by simp))

/-- Whether a text begins, behind spaces, with a character that does not belong to a class. -/
def LeadsOut (p : Char → Bool) (t : Text) : Prop :=
  ∃ margin c s, t = Text.copies margin ' ' ++ c :: s ∧ isBlank c = false ∧ p c = false

theorem leadsOut_row {p : Char → Bool} {t : Text} {c : Char} (ht : t.head? = some c)
    (hc : isBlank c = false) (hp : p c = false) (margin : Nat) (s : Text) :
    LeadsOut p (row margin t ++ s) := by
  obtain ⟨d, ds, rfl⟩ := List.exists_cons_of_ne_nil (l := t) (by rintro rfl; cases ht)
  obtain rfl : d = c := Option.some.inj ht
  exact ⟨margin, d, ds ++ ['\n'] ++ s, by simp [row], hc, hp⟩

/-- A gap goes on over the end of a line and the margin of the next one. -/
theorem gap?_newline_copies (margin : Nat) {t : Text} (ht : ∀ c ∈ t.head?, isBlank c = false) :
    Trace.gap? ('\n' :: (Text.copies margin ' ' ++ t)) =
      some ('\n' :: Text.copies margin ' ', t) :=
  Trace.gap?_append ('\n' :: Text.copies margin ' ') (List.cons_ne_nil _ _)
    (List.forall_mem_cons.2 ⟨rfl, Text.isBlank_of_mem_copies⟩) ht

/-- What stands at the next line but does not belong to the class is not read. -/
theorem LeadsOut.readRun_eq_none {p : Char → Bool} (h : LeadsOut p rest) :
    ∀ g ∈ Trace.gap? ('\n' :: rest), readRun p g = none := by
  obtain ⟨margin, c, s, rfl, hc, hp⟩ := h
  intro g hg
  rw [Option.mem_def, gap?_newline_copies margin (by simpa using hc)] at hg
  obtain rfl := Option.some.inj hg
  simp [readRun, hp]

/-- A figure is read up to the end of its line. -/
theorem labelled_append {label value : Text} {p : Char → Bool} (hne : value ≠ [])
    (hvalue : ∀ c ∈ value, p c = true ∧ isBlank c = false) (hbreak : p '\n' = false)
    (rest : Text) (before : Option Char) :
    labelled label p before (label ++ ' ' :: (value ++ '\n' :: rest)) = some (value, 1) := by
  have hgap : Trace.gap? (' ' :: (value ++ '\n' :: rest)) = some ([' '], value ++ '\n' :: rest) := by
    obtain ⟨c, cs, rfl⟩ := List.exists_cons_of_ne_nil hne
    exact Trace.gap?_space (by simpa using (hvalue c List.mem_cons_self).2)
  have htake : (value ++ '\n' :: rest).takeWhile p = value :=
    Text.takeWhile_append_of_head? (fun c hc => (hvalue c hc).1) (by simpa using hbreak)
  rw [labelled_eq, gapped, Text.after?_append, Option.bind_some, hgap, Option.bind_some, readRun,
    htake, if_neg (by simpa using hne)]

end Labels

/-! ## Rows -/

section Rows

variable {α : Type} {label fixed word rest : Text} {a : Char} {margin : Nat}
  {next : Text × Text → Option (α × Nat)}

theorem passes_copies (hhead : label.head? = some a) (ha : a ≠ ' ') :
    (gapped label next).Passes (Text.copies margin ' ') rest :=
  passes_of_notMem hhead fun hmem => ha (List.eq_of_mem_replicate hmem)

/-- A row is passed over whose first part is unlike the label and whose second one is a word. -/
theorem passes_row (margin : Nat) (fixed : Text) (hhead : label.head? = some a) (ha : a ≠ ' ')
    (hlabel : '\n' ∉ label) (hfixed : Apart label fixed) (hword : ∀ c ∈ word, isBlank c = false)
    (hnext : ∀ g ∈ Trace.gap? ('\n' :: rest), next g = none) :
    (gapped label next).Passes (row margin (fixed ++ word)) rest := by
  have hbreak : (gapped label next).Passes ['\n'] rest := by
    refine passes_of_notMem hhead fun hmem => hlabel ?_
    rw [← List.mem_singleton.1 hmem]
    exact List.mem_of_head? hhead
  rw [row, List.append_assoc]
  exact (passes_copies hhead ha).append <| (passes_of_apart hfixed).append <|
    Recogniser.Passes.append (passes_word hlabel hword hnext) hbreak

/-- A row is passed over where the first character of the label is missing. -/
theorem passes_row_of_notMem {t : Text} (hhead : label.head? = some a) (ha : a ≠ ' ')
    (hbreak : a ≠ '\n') (ht : a ∉ t) : (gapped label next).Passes (row margin t) rest := by
  refine passes_of_notMem hhead fun hmem => ?_
  rcases List.mem_append.1 hmem with hmem | hmem
  · exact ha (List.eq_of_mem_replicate hmem)
  · rcases List.mem_append.1 hmem with hmem | hmem
    · exact ht hmem
    · exact hbreak (List.mem_singleton.1 hmem)

end Rows

end ScriptAudit.Report
