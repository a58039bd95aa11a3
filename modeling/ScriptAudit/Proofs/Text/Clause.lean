import ScriptAudit.Document.Variable
import ScriptAudit.Proofs.Text.Keyword
import ScriptAudit.Proofs.Text.Lines
import ScriptAudit.Proofs.Text.Search

/-!
# What is looked for by a keyword

A clause of a line begins with a keyword, which is looked for from left to right. A recogniser that
`Seeks` a keyword finds nothing in a text that `Lacks` it, and in a row of such texts, with blanks
between them, it finds nothing either (`Recogniser.Seeks.first?_joinWith`). So the clause behind them
is found first (`Recogniser.Seeks.first?_joinWith_append`). The word behind a keyword is found whatever
the margins of the text are (`Text.first?_wordAfter_trim`).
-/

namespace ScriptAudit

namespace Text

variable {keyword : Text}

theorem wholeWord_eq (keyword : Text) (before : Option Char) (t : Text) :
    wholeWord keyword before t =
      if wordStarts before then
        match afterKeyword? keyword t with
        | none => none
        | some rest => if rest.head?.any isWord then none else some ((), keyword.length)
      else none := by
  rw [wholeWord]
  cases wordStarts before
  · rfl
  · cases afterKeyword? keyword t <;> rfl

theorem wordAfter_eq (keyword : Text) (before : Option Char) (t : Text) :
    wordAfter keyword before t =
      if wordStarts before then
        match afterKeyword? keyword t with
        | none => none
        | some rest =>
          let blanks := rest.takeWhile isBlank
          let word := (rest.dropWhile isBlank).takeWhile isWord
          if blanks.isEmpty || word.isEmpty then none
          else some (word, keyword.length + blanks.length + word.length)
      else none := by
  rw [wordAfter]
  cases wordStarts before
  · rfl
  · cases afterKeyword? keyword t with
    | none => rfl
    | some rest =>
      simp only [← drop_length_takeWhile]
      rfl

theorem length_of_afterKeyword? {t rest : Text} (h : afterKeyword? keyword t = some rest) :
    keyword.length + rest.length = t.length := by
  obtain ⟨word, rfl, hword⟩ := afterKeyword?_eq_some.1 h
  have hlength := congrArg List.length hword
  rw [List.length_map, List.length_map] at hlength
  rw [List.length_append, hlength]

/-! ## Texts with a keyword -/

/-- A name is made of word characters. -/
def IsName (t : Text) : Prop := t ≠ [] ∧ ∀ c ∈ t, isWord c = true

instance (t : Text) : Decidable (IsName t) :=
  decidable_of_iff (t ≠ [] ∧ t.all isWord = true) (and_congr_right' List.all_eq_true)

theorem IsName.isBlank_head? {t : Text} (h : IsName t) (rest : Text) :
    ∀ c ∈ (t ++ rest).head?, isBlank c = false := by
  obtain ⟨c, t, rfl⟩ := List.exists_cons_of_ne_nil h.1
  exact fun d hd => isBlank_eq_false_of_isWord (h.2 d (Option.some.inj hd ▸ List.mem_cons_self))

section

variable {t rest : Text}

theorem takeWhile_isBlank_cons (h : ∀ c ∈ t.head?, isBlank c = false) :
    (' ' :: t).takeWhile isBlank = [' '] :=
  takeWhile_append_of_head? (p := isBlank) (List.forall_mem_singleton.2 (by decide)) h

theorem dropWhile_isBlank_cons (h : ∀ c ∈ t.head?, isBlank c = false) :
    (' ' :: t).dropWhile isBlank = t :=
  dropWhile_append_of_head? (p := isBlank) (List.forall_mem_singleton.2 (by decide)) h

variable (keyword : Text) (hrest : ∀ c ∈ rest.head?, isBlank c = true)
include hrest

theorem wholeWord_append :
    wholeWord keyword (some ' ') (keyword ++ rest) = some ((), keyword.length) := by
  have hword : rest.head?.any isWord = false := by
    rw [Option.any_eq_false]
    exact fun c hc => isWord_eq_false_of_isBlank (hrest c hc)
  rw [wholeWord_eq, afterKeyword?_self_append, if_pos (by decide)]
  simp [hword]

theorem wordAfter_append (ht : IsName t) :
    wordAfter keyword (some ' ') (keyword ++ ' ' :: (t ++ rest)) =
      some (t, keyword.length + 1 + t.length) := by
  rw [wordAfter_eq, afterKeyword?_self_append, if_pos (by decide)]
  have hhead := ht.isBlank_head? rest
  simp only [takeWhile_isBlank_cons hhead, dropWhile_isBlank_cons hhead,
    takeWhile_append_of_head? ht.2 fun c hc => isWord_eq_false_of_isBlank (hrest c hc)]
  simp [ht.1]

end

/-! ## Texts without a keyword -/

/-- The keyword is read nowhere in the text. -/
def Lacks (keyword t : Text) : Prop := ∀ u, u <:+ t → afterKeyword? keyword u = none

instance (keyword t : Text) : Decidable (Lacks keyword t) :=
  decidable_of_iff (∀ u ∈ t.tails, (afterKeyword? keyword u).isNone = true) <| by
    simp only [List.mem_tails, Option.isNone_iff_eq_none, Lacks]

theorem Lacks.tail {c : Char} {t : Text} (h : Lacks keyword (c :: t)) : Lacks keyword t :=
  fun u hu => h u (hu.trans (List.suffix_cons c t))

/-- Case does not count. -/
theorem Lacks.of_map_eq {s t : Text} (hs : Lacks keyword s)
    (h : s.map foldLetter = t.map foldLetter) : Lacks keyword t := by
  rintro u ⟨x, rfl⟩
  refine Option.eq_none_iff_forall_ne_some.2 fun rest hrest => ?_
  obtain ⟨word, rfl, hword⟩ := afterKeyword?_eq_some.1 hrest
  rw [List.map_append, List.map_append] at h
  obtain ⟨x', s', rfl, -, hs'⟩ := List.map_eq_append_iff.1 h
  obtain ⟨word', rest', rfl, hword', -⟩ := List.map_eq_append_iff.1 hs'
  have hread : afterKeyword? keyword (word' ++ rest') = some rest' :=
    afterKeyword?_eq_some.2 ⟨word', rfl, hword'.trans hword⟩
  rw [hs _ (List.suffix_append x' _)] at hread
  cases hread

section

variable (hletters : keyword.all (fun k => (foldLetter k).isAlpha) = true) {s t : Text}
include hletters

theorem Lacks.cons {b : Char} (h : Lacks keyword t) (hb : isBlank b = true) :
    Lacks keyword (b :: t) := by
  intro u hu
  rcases List.suffix_cons_iff.1 hu with rfl | hu
  · exact afterKeyword?_append_of_head? (t := []) (fun c hc => Option.some.inj hc ▸ hb) hletters
      (h [] (List.nil_suffix))
  · exact h u hu

theorem Lacks.append (ht : Lacks keyword t) (hs : Lacks keyword s)
    (hblank : ∀ c ∈ s.head?, isBlank c = true) : Lacks keyword (t ++ s) := by
  intro u hu
  rcases List.suffix_or_suffix_of_suffix hu (List.suffix_append t s) with hu' | ⟨v, rfl⟩
  · exact hs u hu'
  · obtain ⟨x, hx⟩ := hu
    rw [← List.append_assoc] at hx
    exact afterKeyword?_append_of_head? hblank hletters (ht v ⟨x, List.append_cancel_right hx⟩)

/-- A keyword does not reach over a blank. -/
theorem lacks_joinWith {ts : List Text} (hne : ts ≠ []) (h : ∀ t ∈ ts, Lacks keyword t) :
    Lacks keyword (joinWith [' '] ts) := by
  induction ts with
  | nil => exact absurd rfl hne
  | cons t ts ih =>
    have ht : Lacks keyword t := h t List.mem_cons_self
    cases ts with
    | nil => exact ht
    | cons t' ts =>
      have hrest := ih (by simp) fun u hu => h u (List.mem_cons_of_mem _ hu)
      rw [joinWith_cons _ (by simp), List.append_assoc]
      exact ht.append hletters (hrest.cons hletters (by decide)) fun c hc =>
        Option.some.inj hc ▸ by decide

end

end Text

/-! ## Looking for a keyword -/

namespace Recogniser

variable {α : Type} {r : Recogniser α} {keyword : Text}

/-- Nothing is found where the keyword is not read. -/
def Seeks (r : Recogniser α) (keyword : Text) : Prop :=
  ∀ before t, Text.afterKeyword? keyword t = none → r before t = none

theorem seeks_wholeWord (keyword : Text) : (Text.wholeWord keyword).Seeks keyword := by
  intro before t h
  rw [Text.wholeWord_eq, h]
  split <;> rfl

theorem seeks_wordAfter (keyword : Text) : (Text.wordAfter keyword).Seeks keyword := by
  intro before t h
  rw [Text.wordAfter_eq, h]
  split <;> rfl

namespace Seeks

variable (h : r.Seeks keyword) {ts : List Text}
include h

theorem first?_of_lacks {t : Text} (ht : Text.Lacks keyword t) : r.first? t = none := by
  have hpass : r.Passes t [] := fun before u hu _ => by
    rw [List.append_nil]
    exact h before u (ht u hu)
  rw [← List.append_nil t, first?, hpass.search_append]
  rfl

variable (hletters : keyword.all (fun k => (foldLetter k).isAlpha) = true) (hne : ts ≠ [])
include hletters hne

/-- Nothing is found in texts without the keyword. -/
theorem first?_joinWith (hts : ∀ t ∈ ts, Text.Lacks keyword t) :
    r.first? (Text.joinWith [' '] ts) = none :=
  h.first?_of_lacks (Text.lacks_joinWith hletters hne hts)

/-- What is found behind texts without the keyword is found first. -/
theorem first?_joinWith_append (hts : ∀ t ∈ ts, Text.Lacks keyword t) {us : List Text}
    (hus : us ≠ []) {a : α} {n : Nat}
    (hfound : r (some ' ') (Text.joinWith [' '] us) = some (a, n)) :
    r.first? (Text.joinWith [' '] (ts ++ us)) = some a := by
  have hlacks := Text.lacks_joinWith hletters hne hts
  rw [Text.joinWith_append _ hne hus]
  generalize Text.joinWith [' '] ts = t at hlacks ⊢
  generalize Text.joinWith [' '] us = u at hfound ⊢
  cases u with
  | nil =>
    rw [h _ _ (hlacks [] List.nil_suffix)] at hfound
    cases hfound
  | cons c u =>
    have hpass : r.Passes (t ++ [' ']) (c :: u) := by
      intro before w hw hwne
      rcases List.suffix_concat_iff.1 hw with rfl | ⟨v, rfl, hv⟩
      · exact absurd rfl hwne
      refine h before _ ?_
      rw [List.append_assoc]
      exact Text.afterKeyword?_append_of_head? (fun d hd => Option.some.inj hd ▸ by decide) hletters
        (hlacks v hv)
    rw [first?, hpass.search_append, search]
    simp [hfound]

end Seeks

end Recogniser

/-! ## Margins -/

namespace Text

section

variable {keyword : Text} (hletters : keyword.all (fun k => (foldLetter k).isAlpha) = true)
include hletters

/-- Blanks behind a text complete no word behind the keyword. -/
theorem endsBefore_wordAfter {rest : Text} (hrest : blank rest = true) :
    (wordAfter keyword).EndsBefore rest := by
  intro before t _
  cases rest with
  | nil => rw [List.append_nil]
  | cons b rest =>
    have hall : ∀ c ∈ b :: rest, isBlank c = true := List.all_eq_true.1 hrest
    have hb : isBlank b = true := hall b List.mem_cons_self
    rw [wordAfter_eq, wordAfter_eq, afterKeyword?_append_cons (foldLetter_ne_of_isAlpha
      (List.all_eq_true.1 hletters) (isAlpha_foldLetter_of_isBlank hb))]
    cases afterKeyword? keyword t with
    | none => rfl
    | some behind =>
      simp only [Option.map_some]
      have hsplit := List.takeWhile_append_dropWhile (p := isBlank) (l := behind)
      have hblanks : ∀ c ∈ behind.takeWhile isBlank, isBlank c = true := fun c => List.mem_takeWhile_imp
      cases hword : behind.dropWhile isBlank with
      | nil =>
        -- no word stands behind the keyword
        rw [hword, List.append_nil] at hsplit
        have hnil : (behind ++ b :: rest).dropWhile isBlank = [] := by
          refine List.dropWhile_eq_nil_iff.2 fun c hc => ?_
          rcases List.mem_append.1 hc with hc | hc
          · exact hblanks c (hsplit.symm ▸ hc)
          · exact hall c hc
        simp [hnil]
      | cons a v =>
        have ha : isBlank a = false := eq_false_of_mem_head?_dropWhile (by rw [hword]; rfl)
        rw [hword] at hsplit
        rw [← hsplit, List.append_assoc, List.cons_append, dropWhile_append_of_head? hblanks
          (by simpa using ha), takeWhile_append_of_head? hblanks (by simpa using ha),
          takeWhile_append_of_head? hblanks (by simpa using ha), ← List.cons_append,
          takeWhile_append_cons (isWord_eq_false_of_isBlank hb)]

variable (hne : keyword ≠ [])
include hne

theorem passes_wordAfter {u : Text} (hu : blank u = true) (rest : Text) :
    (wordAfter keyword).Passes u rest := by
  intro before w hw hwne
  obtain ⟨k, ks, rfl⟩ := List.exists_cons_of_ne_nil hne
  obtain ⟨b, w, rfl⟩ := List.exists_cons_of_ne_nil hwne
  have hb : isBlank b = true := List.all_eq_true.1 hu b (hw.subset List.mem_cons_self)
  refine Recogniser.seeks_wordAfter (k :: ks) before _ ?_
  exact afterKeyword?_append_of_head? (t := []) (fun c hc => Option.some.inj hc ▸ hb) hletters rfl

/-- The blanks in front of a text are passed over. -/
theorem first?_wordAfter_append {lead : Text} (hlead : blank lead = true) (t : Text) :
    (wordAfter keyword).first? (lead ++ t) = (wordAfter keyword).first? t := by
  have hstarts : wordStarts (lead.getLast?.or none) = wordStarts none := by
    cases hlast : lead.getLast? with
    | none => rfl
    | some c =>
      have hblank : isBlank c = true := List.all_eq_true.1 hlead c (List.mem_of_getLast? hlast)
      simp [wordStarts, isWord_eq_false_of_isBlank hblank]
  rw [Recogniser.first?, (passes_wordAfter hletters hne hlead t).search_append, Recogniser.first?]
  cases t with
  | nil => rfl
  | cons c t => rw [Recogniser.search, Recogniser.search, wordAfter_eq, wordAfter_eq, hstarts]

/-- The margins of a text do not matter. -/
theorem first?_wordAfter_trim (t : Text) :
    (wordAfter keyword).first? (trim t) = (wordAfter keyword).first? t := by
  obtain ⟨rest, hleft, hrest⟩ := exists_trimLeft_eq t
  have hlead : blank (t.takeWhile isBlank) = true :=
    List.all_eq_true.2 fun c => List.mem_takeWhile_imp
  have hsplit : t = t.takeWhile isBlank ++ (trim t ++ rest) := by
    rw [← hleft, trimLeft, List.takeWhile_append_dropWhile]
  have hlater : (wordAfter keyword).search (trim t).getLast? rest = none := by
    rw [← List.append_nil rest, (passes_wordAfter hletters hne hrest []).search_append]
    rfl
  conv_rhs => rw [hsplit]
  rw [first?_wordAfter_append hletters hne hlead, (endsBefore_wordAfter hletters hrest).first?_append,
    hlater, Option.or_none]

end

end Text

end ScriptAudit
