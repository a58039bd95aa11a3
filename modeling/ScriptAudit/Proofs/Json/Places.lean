import ScriptAudit.Proofs.Json.Layout
import ScriptAudit.Proofs.Text.Search

/-!
# The places of fields

Where the fields of an array of objects stand in a text. What is found at the places of fields only
is found field by field (`Marked.occurrences_eq`).

* `Row.starts` — the fields of objects, each with the text from its name on.
* `Marked` — texts that are made of fields, at known places, and of other characters.
-/

namespace ScriptAudit.Json

/-! ## Places -/

/-- The fields of an object in front of a text, each with all that stands from its name on. -/
def Field.starts : List Field → Text → List (Field × Text)
  | [], _ => []
  | f :: fs, rest => (f, f.named ++ (fs.flatMap (',' :: ·.text) ++ rest)) :: starts fs rest

/-- The fields of the objects in front of a text, each with all that stands from its name on. -/
def Row.starts : List Row → Text → List (Field × Text)
  | [], _ => []
  | r :: rs, rest =>
    Field.starts r.fields ('}' :: (r.behind ++ (rs.flatMap (',' :: ·.text) ++ rest))) ++ starts rs rest

theorem Field.map_fst_starts (fs : List Field) (rest : Text) :
    (Field.starts fs rest).map Prod.fst = fs := by
  induction fs with
  | nil => rfl
  | cons f fs ih => rw [starts, List.map_cons, ih]

theorem Row.map_fst_starts (rs : List Row) (rest : Text) :
    (Row.starts rs rest).map Prod.fst = rs.flatMap Row.fields := by
  induction rs with
  | nil => rfl
  | cons r rs ih => rw [starts, List.map_append, Field.map_fst_starts, ih, List.flatMap_cons]

/-- A text in which fields stand at places that are known, and which is made of other characters
between them. -/
inductive Marked : List (Field × Text) → Text → Prop
  /-- The end of the text. -/
  | nil : Marked [] []
  /-- A character that belongs to no field. -/
  | skip (c : Char) {ps : List (Field × Text)} {t : Text} (rest : Marked ps t) : Marked ps (c :: t)
  /-- A field. -/
  | field (f : Field) {ps : List (Field × Text)} {t : Text} (rest : Marked ps t) :
    Marked ((f, f.named ++ t) :: ps) (f.named ++ t)

namespace Marked

variable {ps : List (Field × Text)} {t : Text}

theorem append (h : Marked ps t) (u : Text) : Marked ps (u ++ t) := by
  induction u with
  | nil => exact h
  | cons c u ih => exact ih.skip c

theorem self (t : Text) : Marked [] t := by
  simpa using Marked.nil.append t

theorem flatMap_fields (h : Marked ps t) (fs : List Field) :
    Marked (Field.starts fs t ++ ps) (fs.flatMap (',' :: ·.text) ++ t) := by
  induction fs with
  | nil => exact h
  | cons f fs ih =>
    have := ((ih.field f).append f.before).skip ','
    simpa [Field.text, Field.starts] using this

theorem fields (h : Marked ps t) (fs : List Field) :
    Marked (Field.starts fs t ++ ps) (Text.joinWith [','] (fs.map Field.text) ++ t) := by
  cases fs with
  | nil => exact h
  | cons f fs =>
    have := ((h.flatMap_fields fs).field f).append f.before
    simpa [Field.text, Field.starts, Text.joinWith_eq, List.flatMap_map] using this

theorem row (h : Marked ps t) (r : Row) :
    Marked (Field.starts r.fields ('}' :: (r.behind ++ t)) ++ ps) (r.text ++ t) := by
  have := ((((h.append r.behind).skip '}').fields r.fields).skip '{').append r.before
  simpa [Row.text, Row.object] using this

theorem flatMap_rows (h : Marked ps t) (rs : List Row) :
    Marked (Row.starts rs t ++ ps) (rs.flatMap (',' :: ·.text) ++ t) := by
  induction rs with
  | nil => exact h
  | cons r rs ih =>
    have := (ih.row r).skip ','
    simpa [Row.starts] using this

/-- The fields of an array of objects stand where they have been put. -/
theorem arrayOf (before : Text) (rs : List Row) (rest : Text) :
    Marked (Row.starts rs (']' :: rest)) (before ++ (Json.arrayOf rs ++ rest)) := by
  have hrest : Marked [] (']' :: rest) := self _
  refine append ?_ before
  cases rs with
  | nil => exact (self _)
  | cons r rs =>
    have := ((hrest.flatMap_rows rs).row r).skip '['
    simpa [Json.arrayOf, Row.starts, Text.joinWith_eq, List.flatMap_map] using this

/-- Fields stand in the text. -/
theorem suffix (h : Marked ps t) : ∀ p ∈ ps, p.2 <:+ t := by
  induction h with
  | nil => exact nofun
  | skip c _ ih => exact fun p hp => (ih p hp).trans (List.suffix_cons c _)
  | field f _ ih =>
    exact List.forall_mem_cons.2 ⟨List.suffix_rfl, fun p hp => (ih p hp).trans
      (List.suffix_append _ _)⟩

/-! ## What is found at the places -/

variable {α : Type} {r : Recogniser α}

/-- A text that is longer than another one does not stand in it. -/
theorem not_suffix_of_append {u t : Text} (hne : u ≠ []) : ¬ u ++ t <:+ t := fun h => by
  have := h.length_le
  rw [List.length_append] at this
  exact hne (List.length_eq_zero_iff.1 (by omega))

/-- Between the beginning of a field and its end nothing is found, if something is found at the places
of fields only. -/
theorem passes_within (h : ∀ before before' t, r before t = r before' t) {f : Field} {w x : Text}
    (hm : Marked ps t) (hw : f.named = '"' :: w) (hx : x <:+ w)
    (honly : ∀ s, s <:+ f.named ++ t → (r none s).isSome →
      ∃ f', (f', s) ∈ (f, f.named ++ t) :: ps) : r.Passes x t := by
  intro before y hy hne
  obtain ⟨z, hz⟩ := hy.trans hx
  rw [h before none, ← Option.not_isSome_iff_eq_none]
  intro hsome
  obtain ⟨f', hf'⟩ := honly (y ++ t) ⟨'"' :: z, by rw [hw, ← hz]; simp⟩ hsome
  rcases List.mem_cons.1 hf' with heq | hmem
  · have hy : y = f.named := List.append_cancel_right (congrArg Prod.snd heq)
    have hlength := congrArg List.length hz
    rw [hy, hw, List.length_append, List.length_cons] at hlength
    omega
  · exact not_suffix_of_append hne (hm.suffix _ hmem)

/-- If something is found at the places of fields only, and there within the field, the finds are
those of the fields in their order. -/
theorem occurrences_eq {g : Field → Option α} (h : ∀ before before' t, r before t = r before' t)
    (hm : Marked ps t) (honly : ∀ s, s <:+ t → (r none s).isSome → ∃ f, (f, s) ∈ ps)
    (hfound : ∀ p ∈ ps, ∀ t, ∃ n ≤ p.1.named.length,
      r none (p.1.named ++ t) = (g p.1).map (·, n)) :
    r.occurrences t = ps.filterMap (g ·.1) := by
  induction hm with
  | nil => rfl
  | @skip c ps t hm ih =>
    have hnone : r none (c :: t) = none := by
      rw [← Option.not_isSome_iff_eq_none]
      intro hsome
      obtain ⟨f, hf⟩ := honly _ List.suffix_rfl hsome
      exact not_suffix_of_append (List.cons_ne_nil c []) (hm.suffix _ hf)
    rw [← ih (fun s hs => honly s (hs.trans (List.suffix_cons c t))) hfound,
      Recogniser.occurrences, Recogniser.collect, hnone]
    exact Recogniser.collect_eq_occurrences h _ t
  | @field f ps t hm ih =>
    obtain ⟨hfirst, hlater⟩ := List.forall_mem_cons.1 hfound
    obtain ⟨w, hw⟩ : ∃ w, f.named = '"' :: w := ⟨_, rfl⟩
    have hpass {x : Text} (hx : x <:+ w) : r.occurrences (x ++ t) = r.occurrences t :=
      ((passes_within h hm hw hx honly).collect_append none).trans
        (Recogniser.collect_eq_occurrences h _ t)
    have hrest : r.occurrences t = ps.filterMap (g ·.1) := by
      refine ih (fun s hs hsome => ?_) hlater
      obtain ⟨f', hf'⟩ := honly s (hs.trans (List.suffix_append _ _)) hsome
      rcases List.mem_cons.1 hf' with heq | hmem
      · obtain rfl : s = f.named ++ t := congrArg Prod.snd heq
        exact absurd hs (not_suffix_of_append (List.cons_ne_nil _ _))
      · exact ⟨f', hmem⟩
    obtain ⟨n, hn, hfind⟩ := hfirst t
    rw [hw, List.length_cons] at hn
    rw [hw, List.cons_append] at hfind
    rw [hw, List.cons_append, Recogniser.occurrences, Recogniser.collect, hfind, List.filterMap_cons]
    cases g f with
    | none =>
      refine (Recogniser.collect_eq_occurrences h _ _).trans ?_
      rw [hpass List.suffix_rfl, hrest]
    | some a =>
      refine congrArg (a :: ·) ((Recogniser.collect_eq_occurrences_drop h _ _ _).trans ?_)
      rw [List.drop_append_of_le_length (by omega), hpass (List.drop_suffix _ w), hrest]

end Marked

end ScriptAudit.Json
