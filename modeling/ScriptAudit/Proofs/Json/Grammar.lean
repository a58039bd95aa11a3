import ScriptAudit.Json.Reader
import ScriptAudit.Proofs.Text.Letter

/-!
# The grammar of JSON

How values are written, rule by rule: white space stands between tokens, a comma between neighbours
and a colon behind the name of a field. Nothing is said about what a text means. Strings are those
that stand on one line, since everything here is read from lines.

* `IsNumber`, `IsString` — how numbers and strings are written.
* `IsPart` — how values, items and fields are written.
-/

namespace ScriptAudit.Json

/-! ## Tokens -/

/-- White space between tokens. -/
def IsGap (t : Text) : Prop := ∀ c ∈ t, isSpace c = true

instance (t : Text) : Decidable (IsGap t) :=
  decidable_of_iff (t.all isSpace = true) List.all_eq_true

/-- The values that are written as a word. -/
def words : List Text := ["null".toList, "true".toList, "false".toList]

/-- One digit or more. -/
def IsDigits (t : Text) : Prop := t ≠ [] ∧ ∀ c ∈ t, c.isDigit = true

instance (t : Text) : Decidable (IsDigits t) :=
  decidable_of_iff (t ≠ [] ∧ t.all Char.isDigit = true) (and_congr_right' List.all_eq_true)

/-- What may stand behind the digits before the point of a number: a point and digits. -/
def IsFraction (t : Text) : Prop := t = [] ∨ ∃ ds, t = '.' :: ds ∧ IsDigits ds

/-- What may stand at the end of a number: the power of ten to multiply it by. -/
def IsExponent (t : Text) : Prop :=
  t = [] ∨ ∃ e sign ds, t = e :: (sign ++ ds) ∧ e ∈ ['e', 'E'] ∧ sign ∈ [[], ['+'], ['-']] ∧
    IsDigits ds

/-- A number. It does not begin with a zero, unless that is its only digit before the point. -/
def IsNumber (t : Text) : Prop :=
  ∃ sign whole fraction exponent, t = sign ++ (whole ++ (fraction ++ exponent)) ∧
    sign ∈ [[], ['-']] ∧ IsDigits whole ∧ (whole.head? = some '0' → whole = ['0']) ∧
      IsFraction fraction ∧ IsExponent exponent

/-- What stands between the quotation marks of a string, on one line. -/
inductive IsInside : Text → Prop
  /-- Nothing. -/
  | nil : IsInside []
  /-- A character that stands for itself. -/
  | char {c : Char} {t : Text} (hquote : c ≠ '"') (hescape : c ≠ '\\') (hcontrol : 32 ≤ c.toNat)
      (hbreak : isBreak c = false) (rest : IsInside t) : IsInside (c :: t)
  /-- A backslash and the letter of an escape. -/
  | escape {c : Char} {t : Text} (hc : (simpleEscape? c).isSome = true) (rest : IsInside t) :
      IsInside ('\\' :: c :: t)
  /-- A backslash, the letter `u` and four hexadecimal digits. -/
  | unicode {ds t : Text} (hlength : ds.length = 4) (hds : ∀ d ∈ ds, (hexDigit? d).isSome = true)
      (rest : IsInside t) : IsInside ('\\' :: 'u' :: (ds ++ t))

/-- A string. -/
def IsString (t : Text) : Prop := ∃ inside, t = '"' :: (inside ++ ['"']) ∧ IsInside inside

/-! ## Values -/

/-- The parts that values are made of. -/
inductive Part
  /-- A value. -/
  | value
  /-- A value with white space around it. -/
  | element
  /-- Elements with commas between them. -/
  | items
  /-- A name, a colon and an element. -/
  | field
  /-- Fields with commas between them. -/
  | fields

/-- How the parts of values are written. -/
inductive IsPart : Part → Text → Prop
  | word {t : Text} (h : t ∈ words) : IsPart .value t
  | number {t : Text} (h : IsNumber t) : IsPart .value t
  | string {t : Text} (h : IsString t) : IsPart .value t
  | noItems {s : Text} (hs : IsGap s) : IsPart .value ('[' :: (s ++ [']']))
  | array {t : Text} (items : IsPart .items t) : IsPart .value ('[' :: (t ++ [']']))
  | noFields {s : Text} (hs : IsGap s) : IsPart .value ('{' :: (s ++ ['}']))
  | object {t : Text} (fields : IsPart .fields t) : IsPart .value ('{' :: (t ++ ['}']))
  | element {s t s' : Text} (hs : IsGap s) (value : IsPart .value t) (hs' : IsGap s') :
      IsPart .element (s ++ (t ++ s'))
  | oneItem {t : Text} (element : IsPart .element t) : IsPart .items t
  | moreItems {t ts : Text} (element : IsPart .element t) (items : IsPart .items ts) :
      IsPart .items (t ++ ',' :: ts)
  | field {s name s' t : Text} (hs : IsGap s) (hname : IsString name) (hs' : IsGap s')
      (element : IsPart .element t) : IsPart .field (s ++ (name ++ (s' ++ ':' :: t)))
  | oneField {t : Text} (field : IsPart .field t) : IsPart .fields t
  | moreFields {t ts : Text} (field : IsPart .field t) (fields : IsPart .fields ts) :
      IsPart .fields (t ++ ',' :: ts)

/-! ## The characters of tokens -/

/-- The characters of a number that are no digits. -/
def numberMarks : List Char := ['-', '+', '.', 'e', 'E']

theorem isDigit_or_mem_of_isNumber {t : Text} (h : IsNumber t) :
    ∀ c ∈ t, c.isDigit = true ∨ c ∈ numberMarks := by
  obtain ⟨sign, whole, fraction, exponent, rfl, hsign, hwhole, -, hfraction, hexponent⟩ := h
  have hsigns : ∀ sign ∈ [[], ['+'], ['-']], sign.all (fun c => decide (c ∈ numberMarks)) = true := by
    decide
  have hmarks {sign : Text} (hsign : sign ∈ [[], ['+'], ['-']]) : ∀ c ∈ sign, c ∈ numberMarks :=
    Text.forall_mem_of_all (hsigns sign hsign)
  have hminus : sign ∈ [[], ['+'], ['-']] := by
    revert sign
    decide
  simp only [List.forall_mem_append]
  refine ⟨fun c hc => Or.inr (hmarks hminus c hc), fun c hc => Or.inl (hwhole.2 c hc), ?_, ?_⟩
  · rcases hfraction with rfl | ⟨ds, rfl, hds⟩
    · exact List.forall_mem_nil _
    · exact List.forall_mem_cons.2 ⟨Or.inr (by decide), fun c hc => Or.inl (hds.2 c hc)⟩
  · rcases hexponent with rfl | ⟨e, sign, ds, rfl, he, hsign, hds⟩
    · exact List.forall_mem_nil _
    · have hletters : ∀ e ∈ ['e', 'E'], e ∈ numberMarks := Text.forall_mem_of_all (by decide)
      rw [List.forall_mem_cons, List.forall_mem_append]
      exact ⟨Or.inr (hletters e he), fun c hc => Or.inr (hmarks hsign c hc),
        fun c hc => Or.inl (hds.2 c hc)⟩

theorem mem_of_isSome_simpleEscape? {c : Char} (h : (simpleEscape? c).isSome = true) :
    c ∈ ['"', '\\', '/', 'b', 'f', 'n', 'r', 't'] := by
  unfold simpleEscape? at h
  split at h <;> first | decide | cases h

theorem isAlphanum_of_isSome_hexDigit? {c : Char} (h : (hexDigit? c).isSome = true) :
    c.isAlphanum = true := by
  rw [Char.isAlphanum, Bool.or_eq_true]
  unfold hexDigit? at h
  split at h
  · next hdigit =>
    have hcode : 48 ≤ c.toNat ∧ c.toNat ≤ 57 := hdigit
    exact Or.inr (by simpa [Char.isDigit, UInt32.le_iff_toNat_le] using hcode)
  · split at h
    · next hlower =>
      have hcode : 97 ≤ c.toNat ∧ c.toNat ≤ 102 := hlower
      exact Or.inl (isAlpha_iff.2 (by omega))
    · split at h
      · next hupper =>
        have hcode : 65 ≤ c.toNat ∧ c.toNat ≤ 70 := hupper
        exact Or.inl (isAlpha_iff.2 (by omega))
      · cases h

/-- What has a value consists of hexadecimal digits. -/
theorem isSome_hexDigit?_of_mem {t : Text} {n : Nat} (h : hexValue? t = some n) :
    ∀ c ∈ t, (hexDigit? c).isSome = true := by
  suffices hall : ∀ m, t.foldl (fun n c => do return 16 * (← n) + (← hexDigit? c)) m = some n →
      m.isSome = true ∧ ∀ c ∈ t, (hexDigit? c).isSome = true from (hall _ h).2
  clear h
  induction t with
  | nil => exact fun m h => ⟨Option.isSome_of_eq_some h, nofun⟩
  | cons c t ih =>
    intro m h
    obtain ⟨hfirst, ht⟩ := ih _ h
    obtain ⟨k, hk⟩ := Option.isSome_iff_exists.1 hfirst
    simp only [Option.bind_eq_bind, Option.bind_eq_some_iff] at hk
    obtain ⟨i, hi, j, hj, -⟩ := hk
    exact ⟨Option.isSome_of_eq_some hi, List.forall_mem_cons.2 ⟨Option.isSome_of_eq_some hj, ht⟩⟩

/-- A string stands on one line. -/
theorem isBreak_eq_false_of_isInside {t : Text} (h : IsInside t) : ∀ c ∈ t, isBreak c = false := by
  induction h with
  | nil => exact List.forall_mem_nil _
  | char _ _ _ hbreak _ ih => exact List.forall_mem_cons.2 ⟨hbreak, ih⟩
  | @escape c t hc _ ih =>
    have hmarks : ∀ c ∈ ['"', '\\', '/', 'b', 'f', 'n', 'r', 't'], isBreak c = false :=
      Text.forall_mem_of_all (by decide)
    exact List.forall_mem_cons.2 ⟨by decide,
      List.forall_mem_cons.2 ⟨hmarks c (mem_of_isSome_simpleEscape? hc), ih⟩⟩
  | @unicode ds t _ hds _ ih =>
    refine List.forall_mem_cons.2 ⟨by decide, List.forall_mem_cons.2 ⟨by decide,
      List.forall_mem_append.2 ⟨fun d hd => ?_, ih⟩⟩⟩
    have hword := isWord_of_isAlphanum (isAlphanum_of_isSome_hexDigit? (hds d hd))
    exact isBreak_eq_false_of_isBlank_eq_false (isBlank_eq_false_of_isWord hword)

end ScriptAudit.Json
