import Mathlib.Data.List.Basic
import ScriptAudit.Number.Numeral
import ScriptAudit.Proofs.Text.Letter
import ScriptAudit.Proofs.Text.Words

/-!
# Reading plain decimals

A numeral may have margins, a sign, underscores, an exponent or be a name. One that consists of
digits, of any script, with perhaps a sign, a point between them and a power of ten at the end is read
as it stands.

* `IsTenths`, `IsPower` — what may stand behind the first digits of a numeral.
* `IsWhole`, `IsNumeral` — numerals, and the numbers that they stand for.
* `int?_of_isWhole`, `float?_of_isNumeral` — how integers and fractions are read.
-/

namespace ScriptAudit.Numeral

theorem trimOf_eq_self {p : Char → Bool} {t : Text} (h : ∀ c ∈ t, p c = false) :
    t.trimOf p = t := by
  have hdrop {u : Text} (hu : ∀ c ∈ u, p c = false) : u.dropWhile p = u := by
    cases u with
    | nil => rfl
    | cons c cs => exact List.dropWhile_cons_of_neg (by simp [hu c List.mem_cons_self])
  rw [Text.trimOf, hdrop h, hdrop fun c hc => h c (List.mem_reverse.1 hc), List.reverse_reverse]

theorem sign_of_isDecimal {c : Char} (h : isDecimal c = true) (t : Text) :
    sign (c :: t) = (false, c :: t) := by
  unfold sign
  split
  · next heq => cases heq; cases h
  · next heq => cases heq; cases h
  · rfl

theorem grouped?_of_isDecimal {ds : Text} (hne : ds ≠ []) (h : ∀ c ∈ ds, isDecimal c = true) :
    grouped? ds = some (ds.filterMap decimalValue?) := by
  induction ds with
  | nil => exact absurd rfl hne
  | cons c ds ih =>
    obtain ⟨n, hn⟩ := Option.isSome_iff_exists.1 (h c List.mem_cons_self)
    cases ds with
    | nil => simp [grouped?, hn]
    | cons d ds =>
      have hd : d ≠ '_' := by
        rintro rfl
        exact absurd (h '_' (by simp)) (by decide)
      rw [grouped?, hn, ih (List.cons_ne_nil d ds) fun c hc => h c (List.mem_cons_of_mem _ hc),
        List.filterMap_cons_some hn]
      · rfl
      · exact nofun
      · rintro t ht
        exact hd (List.cons.inj ht).1

/-- Nothing that begins with a digit is a name of an infinity, or of no number. -/
theorem map_toLower_ne {c d : Char} (h : isDecimal c = true) (hd : isDecimal d = false)
    (t u : Text) : (((c :: t).map Char.toLower) == d :: u) = false := by
  rw [beq_eq_false_iff_ne, List.map_cons]
  intro heq
  have hlower : c.toLower = d := (List.cons.inj heq).1
  rcases toLower_cases c with ⟨halpha, -⟩ | hsame
  · rw [isAlpha_eq_false_of_isDecimal h] at halpha
    cases halpha
  · rw [hsame] at hlower
    rw [hlower, hd] at h
    cases h

/-- The signs that a numeral may have, and whether they make it negative. -/
def signs : List (Text × Bool) := [([], false), (['+'], false), (['-'], true)]

/-- Whether a text is the power of ten at the end of a numeral. -/
def IsPower (power : Text) (e : Int) : Prop :=
  power = [] ∧ e = 0 ∨ ∃ mark sign negative ds, power = mark :: (sign ++ ds) ∧ mark ∈ ['e', 'E'] ∧
    (sign, negative) ∈ signs ∧ ds ≠ [] ∧ (∀ c ∈ ds, isDecimal c = true) ∧
      e = if negative then -(value (ds.filterMap decimalValue?) : Int)
        else value (ds.filterMap decimalValue?)

/-- What may stand behind the digits before the point: a point and more digits. -/
def IsTenths (rest tenths : Text) : Prop :=
  (∀ c ∈ tenths, isDecimal c = true) ∧ (tenths = [] ∧ rest = [] ∨ tenths ≠ [] ∧ rest = '.' :: tenths)

theorem sign_append {s : Text} {negative : Bool} (hs : (s, negative) ∈ signs) {ds : Text}
    (hne : ds ≠ []) (hds : ∀ c ∈ ds, isDecimal c = true) (t : Text) :
    sign (s ++ (ds ++ t)) = (negative, ds ++ t) := by
  obtain ⟨c, ds, rfl⟩ := List.exists_cons_of_ne_nil hne
  have hc : isDecimal c = true := hds c List.mem_cons_self
  simp only [signs, List.mem_cons, Prod.mk.injEq, List.not_mem_nil, or_false] at hs
  rcases hs with ⟨rfl, rfl⟩ | ⟨rfl, rfl⟩ | ⟨rfl, rfl⟩
  · exact sign_of_isDecimal hc _
  · rfl
  · rfl

theorem exponent?_of_isPower {power : Text} {e : Int} (h : IsPower power e) :
    exponent? power = some e := by
  rcases h with ⟨rfl, rfl⟩ | ⟨mark, s, negative, ds, rfl, hmark, hs, hne, hds, rfl⟩
  · rfl
  · have hmark : (mark = 'e' || mark = 'E') = true := by simpa using hmark
    have hsign := sign_append hs hne hds []
    rw [List.append_nil] at hsign
    rw [exponent?, if_pos hmark, hsign]
    simp [grouped?_of_isDecimal hne hds]

theorem IsPower.head? {power : Text} {e : Int} (h : IsPower power e) :
    ∀ c ∈ power.head?, c ∈ ['e', 'E'] := by
  rcases h with ⟨rfl, -⟩ | ⟨mark, _, _, _, rfl, hmark, -⟩
  · exact nofun
  · rintro c hc
    obtain rfl : mark = c := by simpa using hc
    exact hmark

theorem isMargin_eq_false_of_isDecimal {c : Char} (h : isDecimal c = true) : isMargin c = false := by
  simp [isMargin, isBlank_eq_false_of_isDecimal h]

theorem forall_mem_of_signs {p : Char → Prop} (hplus : p '+') (hminus : p '-') {s : Text}
    {negative : Bool} (hs : (s, negative) ∈ signs) : ∀ c ∈ s, p c := by
  simp only [signs, List.mem_cons, Prod.mk.injEq, List.not_mem_nil, or_false] at hs
  rcases hs with ⟨rfl, -⟩ | ⟨rfl, -⟩ | ⟨rfl, -⟩ <;> simp [hplus, hminus]

/-- Whether a numeral stands for a natural number: digits, and not more than are read. -/
def IsWhole (ds : Text) (n : Nat) : Prop :=
  ds ≠ [] ∧ (∀ c ∈ ds, isDecimal c = true) ∧ ds.length ≤ maxDigits ∧
    n = value (ds.filterMap decimalValue?)

theorem int?_of_isWhole {ds : Text} {n : Nat} (h : IsWhole ds n) : int? ds = .ok n := by
  obtain ⟨hne, hds, hlength, rfl⟩ := h
  have hplain : ([], false) ∈ signs := by decide
  have hsign := sign_append hplain hne hds []
  rw [List.append_nil, List.nil_append] at hsign
  have hrun : ds.takeWhile (fun c => isDecimal c || c == '_') = ds :=
    List.takeWhile_eq_self_iff.2 fun c hc => by simp [hds c hc]
  have hcount : (ds.filterMap decimalValue?).length = ds.length :=
    List.filterMap_length_eq_length.2 fun c hc => hds c hc
  rw [int?, trimOf_eq_self fun c hc => isMargin_eq_false_of_isDecimal (hds c hc), hsign]
  simp only [hrun, grouped?_of_isDecimal hne hds]
  rw [if_neg (by omega), if_neg (lt_irrefl _)]
  rfl

section

variable {whole tenths rest power : Text} {e : Int}

/-- The digits before and behind the point, with the exponent of the last one. -/
theorem fraction?_append (hne : whole ≠ []) (hwhole : ∀ c ∈ whole, isDecimal c = true)
    (htenths : IsTenths rest tenths) (hpower : IsPower power e) :
    fraction? (whole ++ (rest ++ power)) =
      some ((whole ++ tenths).filterMap decimalValue?, e - tenths.length) := by
  have hgroup {ds : Text} (hds : ∀ c ∈ ds, isDecimal c = true) : ∀ c ∈ ds, isGroupChar c = true :=
    fun c hc => by simp [isGroupChar, hds c hc]
  have hmarks : ∀ c ∈ ['e', 'E'], isGroupChar c = false ∧ c ≠ '.' :=
    Text.forall_mem_of_all (by decide)
  have hbehind : ∀ c ∈ power.head?, isGroupChar c = false ∧ c ≠ '.' :=
    fun c hc => hmarks c (hpower.head? c hc)
  have hlength : (tenths.filterMap decimalValue?).length = tenths.length :=
    List.filterMap_length_eq_length.2 fun c hc => htenths.1 c hc
  have hdigits : whole.filterMap decimalValue? ≠ [] := by
    intro hnil
    have := (List.filterMap_length_eq_length (f := decimalValue?)).2 fun c hc => hwhole c hc
    rw [hnil] at this
    exact hne (List.length_eq_zero_iff.1 this.symm)
  have hpoint : ∀ c ∈ (rest ++ power).head?, isGroupChar c = false := by
    rcases htenths.2 with ⟨-, rfl⟩ | ⟨-, rfl⟩
    · exact fun c hc => (hbehind c hc).1
    · rintro c hc
      obtain rfl : '.' = c := by simpa using hc
      decide
  rw [fraction?, Text.takeWhile_append_of_head? (hgroup hwhole) hpoint,
    Text.dropWhile_append_of_head? (hgroup hwhole) hpoint, optional?, if_neg (by simpa using hne),
    grouped?_of_isDecimal hne hwhole]
  rcases htenths.2 with ⟨rfl, rfl⟩ | ⟨htne, rfl⟩
  · have hother : ∀ t, power ≠ '.' :: t := fun t ht => (hbehind '.' (by simp [ht])).2 rfl
    simp [exponent?_of_isPower hpower, hdigits]
  · have hend : ∀ c ∈ power.head?, isGroupChar c = false := fun c hc => (hbehind c hc).1
    simp [Text.takeWhile_append_of_head? (hgroup htenths.1) hend,
      Text.dropWhile_append_of_head? (hgroup htenths.1) hend, optional?, htne,
      grouped?_of_isDecimal htne htenths.1, exponent?_of_isPower hpower, hdigits, hlength]

/-- A numeral of digits, perhaps with a sign, a point and more digits, and a power of ten, is read as
it stands. -/
theorem float?_append {s : Text} {negative : Bool} (hs : (s, negative) ∈ signs) (hne : whole ≠ [])
    (hwhole : ∀ c ∈ whole, isDecimal c = true) (htenths : IsTenths rest tenths)
    (hpower : IsPower power e) :
    float? (s ++ (whole ++ (rest ++ power))) = some (Binary64.ofDecimal negative
      (value ((whole ++ tenths).filterMap decimalValue?)) (e - tenths.length)) := by
  have hdigits {ds : Text} (hds : ∀ c ∈ ds, isDecimal c = true) : ∀ c ∈ ds, isMargin c = false :=
    fun c hc => isMargin_eq_false_of_isDecimal (hds c hc)
  have hmargin : ∀ c ∈ s ++ (whole ++ (rest ++ power)), isMargin c = false := by
    simp only [List.forall_mem_append]
    refine ⟨forall_mem_of_signs (by decide) (by decide) hs, hdigits hwhole, ?_, ?_⟩
    · rcases htenths.2 with ⟨-, rfl⟩ | ⟨-, rfl⟩
      · exact nofun
      · exact List.forall_mem_cons.2 ⟨by decide, hdigits htenths.1⟩
    · rcases hpower with ⟨rfl, -⟩ | ⟨mark, _, _, ds, rfl, hmark, hs, -, hds, -⟩
      · exact nofun
      · have hmarks : ∀ c ∈ ['e', 'E'], isMargin c = false := Text.forall_mem_of_all (by decide)
        exact List.forall_mem_cons.2 ⟨hmarks mark hmark, List.forall_mem_append.2
          ⟨forall_mem_of_signs (by decide) (by decide) hs, hdigits hds⟩⟩
  obtain ⟨c, cs, rfl⟩ := List.exists_cons_of_ne_nil hne
  have hc : isDecimal c = true := hwhole c List.mem_cons_self
  have hfraction := fraction?_append hne hwhole htenths hpower
  have hsign := sign_append hs hne hwhole (rest ++ power)
  rw [float?, trimOf_eq_self hmargin, hsign]
  rw [List.cons_append] at hfraction ⊢
  have hinf := map_toLower_ne hc (d := 'i') (by decide) (cs ++ (rest ++ power)) "nf".toList
  have hinfinity := map_toLower_ne hc (d := 'i') (by decide) (cs ++ (rest ++ power)) "nfinity".toList
  have hnan := map_toLower_ne hc (d := 'n') (by decide) (cs ++ (rest ++ power)) "an".toList
  show (if _ then _ else _) = _
  rw [if_neg, if_neg, hfraction]
  · rfl
  · exact Bool.not_eq_true _ ▸ hnan
  · rw [Bool.or_eq_true, not_or]
    exact ⟨Bool.not_eq_true _ ▸ hinf, Bool.not_eq_true _ ▸ hinfinity⟩

/-- Whether a numeral stands for a floating-point number: digits, perhaps with a sign, a point and more
digits, and a power of ten. -/
def IsNumeral (t : Text) (x : Float) : Prop :=
  ∃ s negative whole rest tenths power e, t = s ++ (whole ++ (rest ++ power)) ∧
    (s, negative) ∈ signs ∧ whole ≠ [] ∧ (∀ c ∈ whole, isDecimal c = true) ∧
      IsTenths rest tenths ∧ IsPower power e ∧ x = Binary64.ofDecimal negative
        (value ((whole ++ tenths).filterMap decimalValue?)) (e - tenths.length)

theorem float?_of_isNumeral {t : Text} {x : Float} (h : IsNumeral t x) : float? t = some x := by
  obtain ⟨s, negative, whole, rest, tenths, power, e, rfl, hs, hne, hwhole, htenths, hpower, rfl⟩ := h
  exact float?_append hs hne hwhole htenths hpower

/-- A decimal time, digits with perhaps a point and more digits behind it, is read as it stands. -/
theorem float?_of_isDecimal (hne : whole ≠ []) (hwhole : ∀ c ∈ whole, isDecimal c = true)
    (htenths : ∀ c ∈ tenths, isDecimal c = true)
    (hrest : tenths = [] ∧ rest = [] ∨ tenths ≠ [] ∧ rest = '.' :: tenths) :
    float? (whole ++ rest) = some (Binary64.ofDecimal false
      (value ((whole ++ tenths).filterMap decimalValue?)) (-tenths.length)) := by
  have hplain : ([], false) ∈ signs := by decide
  simpa using float?_append hplain hne hwhole ⟨htenths, hrest⟩ (Or.inl ⟨rfl, rfl⟩)

end

end ScriptAudit.Numeral
