import ScriptAudit.Check.Naming
import ScriptAudit.Proofs.Text.Letter
import ScriptAudit.Proofs.Text.Lines

/-!
# Suggested spellings

For a name that is not in camel case another spelling is suggested. It consists of the letters and
digits of the name in their order, though not in their case, so that it is in camel case and not too
long. But what is left of a name without its underscores may be a single letter or a reserved word,
and then the check would not accept its own suggestion.

* `Naming.IsPlainName`, `Naming.letters` — names, and what is left of them without underscores.
* `Naming.respells_toCamelCase`, `Naming.isCamelCase_toCamelCase` — what the suggestion is like.
* `Naming.problem?_suggested` — which suggestions are accepted.
-/

namespace ScriptAudit

/-! ## Letter case of plain characters -/

/-- What holds of each of the first 128 characters. -/
theorem of_forall_lt {p : Char → Prop} (h : ∀ n < 128, p (Char.ofNat n)) {c : Char}
    (hc : c.toNat < 128) : p c := by
  have := h c.toNat hc
  rwa [Char.ofNat_toNat] at this

theorem toNat_lt_of_isAlphanum {c : Char} (h : c.isAlphanum = true) : c.toNat < 128 := by
  rw [Char.isAlphanum, Bool.or_eq_true] at h
  rcases h with h | h
  · have := isAlpha_iff.1 h
    omega
  · have := toNat_of_isDigit h
    omega

section

variable {c : Char}

theorem toLower_toUpper (hc : c.toNat < 128) : c.toUpper.toLower = c.toLower :=
  of_forall_lt (p := fun c => c.toUpper.toLower = c.toLower) (by decide) hc

theorem toLower_toLower (hc : c.toNat < 128) : c.toLower.toLower = c.toLower :=
  of_forall_lt (p := fun c => c.toLower.toLower = c.toLower) (by decide) hc

theorem isAlphanum_toLower (h : c.isAlphanum = true) : c.toLower.isAlphanum = true :=
  of_forall_lt (p := fun c => c.isAlphanum = true → c.toLower.isAlphanum = true) (by decide)
    (toNat_lt_of_isAlphanum h) h

theorem isAlphanum_toUpper (h : c.isAlphanum = true) : c.toUpper.isAlphanum = true :=
  of_forall_lt (p := fun c => c.isAlphanum = true → c.toUpper.isAlphanum = true) (by decide)
    (toNat_lt_of_isAlphanum h) h

theorem isAlphanum_of_isAlpha (h : c.isAlpha = true) : c.isAlphanum = true := by
  simp [Char.isAlphanum, h]

theorem isLower_toLower (h : c.isAlpha = true) : c.toLower.isLower = true :=
  of_forall_lt (p := fun c => c.isAlpha = true → c.toLower.isLower = true) (by decide)
    (toNat_lt_of_isAlphanum (isAlphanum_of_isAlpha h)) h

end

namespace Text

variable {t : Text} (ht : ∀ c ∈ t, c.isAlphanum = true)
include ht

/-- Plain letters and digits are mapped to lower case one by one. -/
theorem lower_eq_map : lower t = t.map Char.toLower := by
  suffices h : ∀ before, lowerFrom before t = t.map Char.toLower from h []
  induction t with
  | nil => exact fun _ => rfl
  | cons c cs ih =>
    intro before
    have hc := toNat_lt_of_isAlphanum (ht c List.mem_cons_self)
    have hsigma : c ≠ 'Σ' := by
      rintro rfl
      exact absurd hc (by decide)
    have hlower : lowerOf c = [c.toLower] := by rw [lowerOf, if_pos hc]
    rw [lowerFrom, if_neg hsigma, hlower, ih fun d hd => ht d (List.mem_cons_of_mem c hd)]
    rfl

theorem upper_eq_map : upper t = t.map Char.toUpper := by
  unfold upper
  induction t with
  | nil => rfl
  | cons c cs ih =>
    have hc := toNat_lt_of_isAlphanum (ht c List.mem_cons_self)
    have hupper : upperOf c = [c.toUpper] := by rw [upperOf, if_pos hc]
    rw [List.flatMap_cons, hupper, ih fun d hd => ht d (List.mem_cons_of_mem c hd)]
    rfl

end Text

namespace Naming

open Text (lower lower_eq_map upper_eq_map splitAt)

/-! ## Words in other letters -/

/-- Whether a text has the letters and digits of another one, though not in the same case. -/
structure Respells (s t : Text) : Prop where
  isAlphanum : ∀ c ∈ s, c.isAlphanum = true
  map_toLower : s.map Char.toLower = t.map Char.toLower

namespace Respells

variable {s t u v : Text}

theorem refl (h : ∀ c ∈ t, c.isAlphanum = true) : Respells t t := ⟨h, rfl⟩

theorem lower (h : ∀ c ∈ t, c.isAlphanum = true) : Respells (Text.lower t) t := by
  rw [lower_eq_map h]
  refine ⟨fun c hc => ?_, ?_⟩
  · obtain ⟨d, hd, rfl⟩ := List.mem_map.1 hc
    exact isAlphanum_toLower (h d hd)
  · rw [List.map_map]
    exact List.map_congr_left fun c hc => toLower_toLower (toNat_lt_of_isAlphanum (h c hc))

theorem upper (h : ∀ c ∈ t, c.isAlphanum = true) : Respells (Text.upper t) t := by
  rw [upper_eq_map h]
  refine ⟨fun c hc => ?_, ?_⟩
  · obtain ⟨d, hd, rfl⟩ := List.mem_map.1 hc
    exact isAlphanum_toUpper (h d hd)
  · rw [List.map_map]
    exact List.map_congr_left fun c hc => toLower_toUpper (toNat_lt_of_isAlphanum (h c hc))

theorem append (h : Respells s t) (h' : Respells u v) : Respells (s ++ u) (t ++ v) where
  isAlphanum c hc := (List.mem_append.1 hc).elim (h.isAlphanum c) (h'.isAlphanum c)
  map_toLower := by rw [List.map_append, List.map_append, h.map_toLower, h'.map_toLower]

theorem length_eq (h : Respells s t) : s.length = t.length := by
  simpa using congrArg List.length h.map_toLower

theorem lower_eq (h : Respells s t) (ht : ∀ c ∈ t, c.isAlphanum = true) :
    Text.lower s = Text.lower t := by
  rw [lower_eq_map h.isAlphanum, lower_eq_map ht, h.map_toLower]

end Respells

theorem respells_capitalized {w : Text} (h : ∀ c ∈ w, c.isAlphanum = true) :
    Respells (capitalized w) w := by
  have hfirst : Respells (Text.upper (w.take 1)) (w.take 1) :=
    .upper fun c hc => h c (List.mem_of_mem_take hc)
  have hrest : Respells (lower (w.drop 1)) (w.drop 1) :=
    .lower fun c hc => h c (List.mem_of_mem_drop hc)
  have := hfirst.append hrest
  rwa [List.take_append_drop 1 w] at this

theorem respells_joined {ws : List Text} (h : ∀ w ∈ ws, ∀ c ∈ w, c.isAlphanum = true) :
    Respells (joined ws) ws.flatten := by
  have hrest {ws : List Text} (h : ∀ w ∈ ws, ∀ c ∈ w, c.isAlphanum = true) :
      Respells (ws.flatMap capitalized) ws.flatten := by
    induction ws with
    | nil => exact .refl nofun
    | cons w ws ih =>
      rw [List.flatMap_cons, List.flatten_cons]
      exact (respells_capitalized (h w List.mem_cons_self)).append
        (ih fun v hv => h v (List.mem_cons_of_mem w hv))
  cases ws with
  | nil => exact .refl nofun
  | cons w ws =>
    rw [joined, List.flatten_cons]
    exact (Respells.lower (h w List.mem_cons_self)).append
      (hrest fun v hv => h v (List.mem_cons_of_mem w hv))

/-! ## Names and their letters -/

/-- A name of plain letters, digits and underscores that begins with a letter. -/
structure IsPlainName (name : Text) : Prop where
  chars : ∀ c ∈ name, c.isAlphanum = true ∨ c = '_'
  head : ∃ c cs, name = c :: cs ∧ c.isAlpha = true

/-- What is left of a name without its underscores. -/
def letters (name : Text) : Text := name.filter (· ≠ '_')

variable {name s : Text}

theorem IsPlainName.isAlphanum_letters (h : IsPlainName name) :
    ∀ c ∈ letters name, c.isAlphanum = true := by
  intro c hc
  obtain ⟨hmem, hne⟩ := List.mem_filter.1 hc
  exact (h.chars c hmem).resolve_right (by simpa using hne)

/-- The words of a name with underscores, the first one of which begins the name. -/
theorem IsPlainName.exists_words (h : IsPlainName name) (hmem : '_' ∈ name) :
    ∃ c w ws, c.isAlpha = true ∧ toCamelCase name = joined ((c :: w) :: ws) ∧
      ((c :: w) :: ws).flatten = letters name := by
  obtain ⟨c, cs, rfl, hc⟩ := h.head
  have hne : c ≠ '_' := by
    rintro rfl
    exact absurd hc (by decide)
  obtain ⟨part, parts, hparts⟩ := List.exists_cons_of_ne_nil (Text.splitAt_ne_nil '_' cs)
  have hsplit : splitAt '_' (c :: cs) = (c :: part) :: parts := by
    rw [splitAt, if_neg hne, hparts]
  refine ⟨c, part, parts.filter (!·.isEmpty), hc, ?_, ?_⟩
  · unfold toCamelCase
    rw [if_pos (List.elem_eq_true_of_mem hmem)]
    show (if ((splitAt '_' (c :: cs)).filter (!·.isEmpty)).isEmpty then c :: cs
      else joined ((splitAt '_' (c :: cs)).filter (!·.isEmpty))) = _
    rw [hsplit]
    rfl
  · rw [List.flatten_cons, List.flatten_filter_not_isEmpty, ← List.flatten_cons, ← hsplit,
      Text.flatten_splitAt]
    rfl

/-- A name without underscores gets a small first letter. -/
theorem IsPlainName.toCamelCase_of_notMem (h : IsPlainName name) (hnot : '_' ∉ name) :
    toCamelCase name = lower (name.take 1) ++ name.drop 1 := by
  have hhyphen : '-' ∉ name := by
    intro hmem
    rcases h.chars '-' hmem with hc | hc <;> exact absurd hc (by decide)
  simp [toCamelCase, hnot, hhyphen]

/-! ## The suggestion -/

/-- The suggestion has the letters and digits of the name. -/
theorem respells_toCamelCase (h : IsPlainName name) : Respells (toCamelCase name) (letters name) := by
  have hletters := h.isAlphanum_letters
  by_cases hmem : '_' ∈ name
  · obtain ⟨c, w, ws, -, hcamel, hflatten⟩ := h.exists_words hmem
    rw [hcamel, ← hflatten]
    refine respells_joined fun v hv d hd => hletters d ?_
    rw [← hflatten]
    exact List.mem_flatten_of_mem hv hd
  · have hself : letters name = name := List.filter_eq_self.2 fun c hc => by
      simpa using fun hc' : c = '_' => hmem (hc' ▸ hc)
    rw [hself] at hletters
    rw [h.toCamelCase_of_notMem hmem, hself]
    have hfirst : Respells (lower (name.take 1)) (name.take 1) :=
      .lower fun c hc => hletters c (List.mem_of_mem_take hc)
    have hrest : Respells (name.drop 1) (name.drop 1) :=
      .refl fun c hc => hletters c (List.mem_of_mem_drop hc)
    have := hfirst.append hrest
    rwa [List.take_append_drop 1 name] at this

/-- The suggestion begins with the first letter of the name as a small one. -/
theorem exists_toCamelCase_eq (h : IsPlainName name) :
    ∃ c cs, toCamelCase name = c :: cs ∧ c.isLower = true := by
  by_cases hmem : '_' ∈ name
  · obtain ⟨c, w, ws, hc, hcamel, hflatten⟩ := h.exists_words hmem
    have hw : ∀ d ∈ c :: w, d.isAlphanum = true := fun d hd => h.isAlphanum_letters d <| by
      rw [← hflatten, List.flatten_cons]
      exact List.mem_append_left _ hd
    refine ⟨c.toLower, w.map Char.toLower ++ ws.flatMap capitalized, ?_, isLower_toLower hc⟩
    rw [hcamel, joined, lower_eq_map hw]
    rfl
  · obtain ⟨c, cs, rfl, hc⟩ := h.head
    refine ⟨c.toLower, cs, ?_, isLower_toLower hc⟩
    rw [h.toCamelCase_of_notMem hmem, List.take_succ_cons, List.take_zero,
      lower_eq_map (List.forall_mem_singleton.2 (isAlphanum_of_isAlpha hc))]
    rfl

theorem isCamelCase_of_isAlphanum {c : Char} {cs : Text} (hc : c.isLower = true)
    (h : ∀ d ∈ c :: cs, d.isAlphanum = true) : isCamelCase (c :: cs) = true := by
  have hlast : (c :: cs).getLast? ≠ some '\n' := by
    intro hlast
    exact absurd (h '\n' (List.mem_of_getLast? hlast)) (by decide)
  unfold isCamelCase
  rw [if_neg (by simpa using hlast)]
  simpa [hc] using fun d hd => h d (List.mem_cons_of_mem c hd)

/-- The suggestion is in camel case. -/
theorem isCamelCase_toCamelCase (h : IsPlainName name) : isCamelCase (toCamelCase name) = true := by
  obtain ⟨c, cs, hcamel, hc⟩ := exists_toCamelCase_eq h
  have hall := (respells_toCamelCase h).isAlphanum
  rw [hcamel] at hall ⊢
  exact isCamelCase_of_isAlphanum hc hall

/-! ## Which suggestions are accepted -/

/-- The message that suggests a spelling. -/
def suggestion (s : Text) : Text := "Use camelCase: \"" ++ s ++ ['"']

/-- Nothing is wrong with a name in camel case that has the right length and is not reserved. -/
theorem problem?_eq_none_iff : problem? s = none ↔
    minLength ≤ s.length ∧ s.length ≤ maxLength ∧ lower s ∉ reserved ∧ isCamelCase s = true := by
  unfold problem?
  split_ifs with hshort hlong hreserved hcamel
  · exact iff_of_false not_false fun h => by omega
  · exact iff_of_false not_false fun h => by omega
  · exact iff_of_false not_false fun h => h.2.2.1 (by simpa using hreserved)
  · exact iff_of_true rfl ⟨by omega, by omega, by simpa using hreserved, hcamel⟩
  · exact iff_of_false not_false fun h => hcamel h.2.2.2

/-- A spelling is suggested for names that have the right length and are not reserved. -/
theorem eq_of_problem?_eq_suggestion (h : problem? name = some (suggestion s)) :
    name.length ≤ maxLength ∧ s = toCamelCase name := by
  have hfirst {t : Text} (ht : some t = some (suggestion s)) : t.head? = some 'U' := by
    rw [Option.some.inj ht]
    rfl
  unfold problem? at h
  -- the other messages begin with other characters
  split_ifs at h with hshort hlong hreserved hcamel
  · exact absurd (hfirst h) (by decide)
  · exact absurd (hfirst h) (by decide)
  · exact absurd (show some '"' = some 'U' from hfirst h) (by decide)
  · refine ⟨by omega, ?_⟩
    have := Option.some.inj h
    unfold suggestion at this
    exact (List.append_cancel_left (List.append_cancel_right this)).symm

/-- **Which suggestions are accepted.** A suggested spelling is in camel case and not too long. The
check accepts it if and only if the name has two letters or digits at least and is, without its
underscores, no reserved word. -/
theorem problem?_suggested (hname : IsPlainName name) (h : problem? name = some (suggestion s)) :
    isCamelCase s = true ∧ s.length ≤ maxLength ∧
      (problem? s = none ↔ minLength ≤ (letters name).length ∧ lower (letters name) ∉ reserved) := by
  obtain ⟨hlong, rfl⟩ := eq_of_problem?_eq_suggestion h
  have hrespells := respells_toCamelCase hname
  have hcamel := isCamelCase_toCamelCase hname
  have hlength : (toCamelCase name).length ≤ maxLength := by
    rw [hrespells.length_eq]
    exact (List.length_filter_le _ _).trans hlong
  refine ⟨hcamel, hlength, ?_⟩
  rw [problem?_eq_none_iff, hrespells.length_eq, hrespells.lower_eq hname.isAlphanum_letters]
  rw [hrespells.length_eq] at hlength
  simp [hcamel, hlength]

/-- A name of two words. -/
theorem problem?_suggested_orderTotal :
    problem? "order_Total" = some (suggestion "orderTotal") ∧ problem? "orderTotal" = none := by
  have hname : IsPlainName "order_Total".toList :=
    ⟨Text.forall_mem_of_all (by decide), 'o', "rder_Total".toList, rfl, by decide⟩
  have hsuggested : problem? "order_Total" = some (suggestion "orderTotal") := by decide +kernel
  exact ⟨hsuggested, (problem?_suggested hname hsuggested).2.2.2 (by decide +kernel)⟩

/-- The check suggests a reserved word and a single letter, which it does not accept itself. -/
theorem problem?_suggested_reserved :
    (problem? "test_" = some (suggestion "test") ∧ problem? "test" ≠ none) ∧
      problem? "A_" = some (suggestion "a") ∧ problem? "a" ≠ none := by
  decide +kernel

end Naming

end ScriptAudit
