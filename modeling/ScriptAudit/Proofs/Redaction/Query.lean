import ScriptAudit.Proofs.Redaction.Finds

/-!
# Query strings

A query string is a path with parameters behind it. Of its parameters those that hold secrets are to
be hidden, and no others (`Query.redacted`). That is what masking parameters does. But masking
arguments comes after it and knows nothing of parameters: behind a key that ends in the word
`password` it hides everything up to the next blank, with all the parameters that follow
(`upToArgument`).

* `Query` — paths and parameters without characters that have a meaning in URLs.
* `replaces_parameter_written`, `replaces_argument_written` — what either pass does to parameters.
* `mask_query` — what is left of a query string, and when that is what it should be.
-/

namespace ScriptAudit.Redaction

/-! ## Query strings -/

/-- Whether a character has no meaning of its own in a query string. -/
def isPlain (c : Char) : Bool :=
  !isBlank c && c ≠ '?' && c ≠ '&' && c ≠ '=' && c ≠ '@' && c ≠ ':'

/-- A parameter of a query string. -/
structure Field where
  key : Text
  value : Text
  isPlain_key : ∀ c ∈ key, isPlain c = true := by exact Text.forall_mem_of_all (by decide)
  isPlain_value : ∀ c ∈ value, isPlain c = true := by exact Text.forall_mem_of_all (by decide)

namespace Field

/-- A parameter with its value hidden. -/
def hidden (f : Field) : Field where
  key := f.key
  value := asterisks
  isPlain_key := f.isPlain_key

instance (name : Text) : Decidable (IsSecretName name) := inferInstanceAs (Decidable (_ ∈ _))

/-- A parameter with its value hidden if it is a secret. -/
def redacted (f : Field) : Field := if IsSecretName f.key then f.hidden else f

/-- A parameter as it is written. -/
def text (f : Field) : Text := f.key ++ '=' :: f.value

end Field

/-- A path with parameters behind it. -/
structure Query where
  path : Text
  fields : List Field
  isPlain_path : ∀ c ∈ path, isPlain c = true := by exact Text.forall_mem_of_all (by decide)

namespace Query

/-- A query string as it is written. -/
def text (q : Query) : Text := q.path ++ '?' :: Text.joinWith ['&'] (q.fields.map Field.text)

/-- A query string with its secrets hidden and everything else in place. -/
def redacted (q : Query) : Query := { q with fields := q.fields.map Field.redacted }

end Query

/-! ## Keys that are taken for arguments -/

/-- Whether a text ends in the whole word `password`, in letters of any case. -/
def EndsInPassword (t : Text) : Prop :=
  ∃ front word, t = front ++ word ∧ IsPasswordWord word ∧ ∀ c ∈ front.getLast?, isWord c = false

theorem IsPasswordWord.length_eq {word : Text} (h : IsPasswordWord word) : word.length = 8 := by
  simpa using congrArg List.length h

instance (word : Text) : Decidable (IsPasswordWord word) := inferInstanceAs (Decidable (_ = _))

instance (t : Text) : Decidable (EndsInPassword t) :=
  decidable_of_iff (IsPasswordWord (t.drop (t.length - 8)) ∧
      (t.take (t.length - 8)).getLast?.any isWord = false) <| by
    constructor
    · rintro ⟨hword, hfront⟩
      exact ⟨_, _, (List.take_append_drop _ t).symm, hword, (Option.any_eq_false _ _).1 hfront⟩
    · rintro ⟨front, word, rfl, hword, hfront⟩
      have hlength : (front ++ word).length - 8 = front.length := by
        rw [List.length_append, hword.length_eq, Nat.add_sub_cancel]
      rw [hlength, List.drop_left, List.take_left]
      exact ⟨hword, (Option.any_eq_false _ _).2 hfront⟩

/-- The parameters up to the first one that is taken for an argument, since its key ends in
`password` and something follows the equals sign; all that follows is hidden. -/
def upToArgument : List Field → List Field
  | [] => []
  | f :: fs =>
    if EndsInPassword f.key ∧ (f.value ≠ [] ∨ fs ≠ []) then [f.hidden] else f :: upToArgument fs

/-- What masking leaves of a query string. -/
def Query.masked (q : Query) : Query :=
  { q with fields := upToArgument (q.fields.map Field.redacted) }

/-! ## Parameters as they are written -/

/-- Parameters as they are written, with `mark` in front of the first one and an ampersand in front
of each other. -/
def written : (mark : Char) → List Field → Text
  | _, [] => []
  | mark, f :: fs => mark :: (f.key ++ '=' :: (f.value ++ written '&' fs))

theorem cons_joinWith_eq_written (mark : Char) (f : Field) (fs : List Field) :
    mark :: Text.joinWith ['&'] ((f :: fs).map Field.text) = written mark (f :: fs) := by
  induction fs generalizing mark f with
  | nil => simp [Text.joinWith, written, Field.text]
  | cons g fs ih =>
    rw [List.map_cons, List.map_cons, Text.joinWith, written, ← ih '&' g, Field.text]
    · simp
    · simp

theorem written_cons (mark : Char) (f : Field) (fs : List Field) :
    written mark (f :: fs) = mark :: f.text ++ written '&' fs := by
  simp [written, Field.text]

theorem Query.text_eq {q : Query} (h : q.fields ≠ []) : q.text = q.path ++ written '?' q.fields := by
  obtain ⟨f, fs, hfs⟩ := List.exists_cons_of_ne_nil h
  rw [Query.text, hfs, cons_joinWith_eq_written]

section

variable {t : Text} (ht : ∀ c ∈ t, isPlain c = true)
include ht

theorem notMem_of_isPlain {a : Char} (ha : isPlain a = false) : a ∉ t := by
  intro hmem
  rw [ht a hmem] at ha
  cases ha

end

theorem isBlank_of_isPlain {c : Char} (h : isPlain c = true) : isBlank c = false := by
  simp only [isPlain, Bool.and_eq_true, Bool.not_eq_true'] at h
  exact h.1.1.1.1.1

/-- A mark is no character of a word. -/
theorem isWord_of_mark {mark : Char} (h : mark = '?' ∨ mark = '&') : isWord mark = false := by
  rcases h with rfl | rfl <;> decide +kernel

theorem notMem_written {a : Char} (ha : isPlain a = false) (hequals : a ≠ '=') {mark : Char}
    (hmark : a ≠ mark) (hampersand : a ≠ '&') (fs : List Field) : a ∉ written mark fs := by
  induction fs generalizing mark with
  | nil => exact List.not_mem_nil
  | cons f fs ih =>
    simp only [written, List.mem_cons, List.mem_append, not_or]
    exact ⟨hmark, notMem_of_isPlain f.isPlain_key ha, hequals,
      notMem_of_isPlain f.isPlain_value ha, ih hampersand⟩

/-- There is no blank in what is written. -/
theorem isBlank_of_mem_written {mark : Char} (hmark : mark = '?' ∨ mark = '&') {fs : List Field} :
    ∀ c ∈ written mark fs, isBlank c = false := by
  intro c hc
  by_contra hblank
  rw [Bool.not_eq_false] at hblank
  have hplain : isPlain c = false := by simp [isPlain, hblank]
  have hne {a : Char} (ha : isBlank a = false) : c ≠ a := by
    rintro rfl
    rw [hblank] at ha
    cases ha
  refine notMem_written hplain (hne (by decide)) ?_ (hne (by decide)) fs hc
  rcases hmark with rfl | rfl <;> exact hne (by decide)

/-! ## Masking parameters -/

/-- Where a parameter of a URL is found in a parameter as it is written, its key is a secret. -/
theorem isSecretName_of_parameter {f : Field} {mark : Char} {before : Option Char} {x y rest : Text}
    (hxy : mark :: f.text = x ++ y) (hy : y ≠ [])
    (h : parameter (x.getLast?.or before) (y ++ rest) ≠ none) : IsSecretName f.key := by
  obtain ⟨⟨new, n⟩, hfound⟩ := Option.ne_none_iff_exists'.1 h
  cases x with
  | nil =>
    obtain rfl : mark :: f.text = y := hxy
    obtain ⟨find, mark', name, value, rest', heq, hfind, -⟩ := parameter_eq_some hfound
    rw [hfind.eq, Field.text] at heq
    simp only [List.cons_append, List.append_assoc] at heq
    obtain ⟨rfl, -⟩ := Text.eq_of_append_cons_eq (notMem_of_isPlain f.isPlain_key (by decide))
      (ne_equals_of_isSecretName hfind.isSecretName) (List.cons.inj heq).2
    exact hfind.isSecretName
  | cons d x =>
    -- there is no mark behind the first one
    exfalso
    obtain ⟨c, hc, -, hmark⟩ := begins_parameter _ _ _ _ hfound
    obtain ⟨e, y, rfl⟩ := List.exists_cons_of_ne_nil hy
    obtain rfl : e = c := Option.some.inj hc
    have hmem : e ∈ f.key ++ '=' :: f.value := by
      rw [← Field.text, (List.cons.inj hxy).2]
      simp
    rcases List.mem_append.1 hmem with hmem | hmem
    · rcases hmark with rfl | rfl <;> exact notMem_of_isPlain f.isPlain_key (by decide) hmem
    rcases List.mem_cons.1 hmem with rfl | hmem
    · exact absurd hmark (by decide)
    · rcases hmark with rfl | rfl <;> exact notMem_of_isPlain f.isPlain_value (by decide) hmem

/-- Masking parameters hides the values of those that are secrets, and no others. -/
theorem replaces_parameter_written {mark : Char} (hmark : mark = '?' ∨ mark = '&')
    (before : Option Char) (fs : List Field) :
    Recogniser.Replaces parameter before (written mark fs)
      (written mark (fs.map Field.redacted)) := by
  induction fs generalizing mark before with
  | nil => exact .done
  | cons f fs ih =>
    have hrest : ∀ c ∈ (written '&' fs).head?, EndsValue c := by
      cases fs with
      | nil => simp [written]
      | cons g fs => exact fun c hc => Or.inl (Option.some.inj hc).symm
    rw [List.map_cons, written_cons, written_cons, Field.redacted]
    by_cases hname : IsSecretName f.key
    · have hfind : IsParameter (mark :: f.text) mark f.key f.value := by
        refine ⟨rfl, hmark, hname, fun c hc => ⟨?_, isBlank_of_isPlain (f.isPlain_value c hc)⟩⟩
        rintro rfl
        exact notMem_of_isPlain f.isPlain_value (by decide) hc
      rw [if_pos hname]
      exact .put (parameter_append hfind hrest before) (ih (Or.inr rfl) _)
    · rw [if_neg hname]
      refine .keep_append (fun x y hxy hy => ?_) (ih (Or.inr rfl) _)
      by_contra hfound
      exact hname (isSecretName_of_parameter hxy hy hfound)

/-! ## Masking arguments -/

/-- Where an argument is found, the text up to the first equals sign is the word `password`. -/
theorem argument_append_equals {before : Option Char} {x rest : Text} (hx : '=' ∉ x)
    (h : argument before (x ++ '=' :: rest) ≠ none) :
    IsPasswordWord x ∧ before.any isWord = false ∧ rest ≠ [] := by
  obtain ⟨⟨new, n⟩, hfound⟩ := Option.ne_none_iff_exists'.1 h
  obtain ⟨hbefore, find, word, value, rest', heq, hfind, -⟩ := argument_eq_some hfound
  rw [hfind.eq, List.append_assoc, List.cons_append] at heq
  have hword : '=' ∉ word :=
    ne_equals_of_isSecretName (isSecretName_of_isPasswordWord hfind.isPasswordWord)
  obtain ⟨rfl, rfl⟩ := Text.eq_of_append_cons_eq hx hword heq
  exact ⟨hfind.isPasswordWord, hbefore, by simp [hfind.value_ne_nil]⟩

section

variable {mark : Char} (hmark : mark = '?' ∨ mark = '&')
include hmark

theorem IsPasswordWord.mark_notMem {word : Text} (h : IsPasswordWord word) : mark ∉ word := by
  intro hmem
  have := isWord_of_isSecretName (isSecretName_of_isPasswordWord h) mark hmem
  rw [isWord_of_mark hmark] at this
  cases this

theorem equals_notMem_cons_key (f : Field) : '=' ∉ mark :: f.key := by
  rw [List.mem_cons, not_or]
  refine ⟨?_, notMem_of_isPlain f.isPlain_key (by decide)⟩
  rcases hmark with rfl | rfl <;> decide

/-- No argument begins in front of a mark. -/
theorem argument_append_written {before : Option Char} {y : Text} (hy : '=' ∉ y) (fs : List Field) :
    argument before (y ++ written mark fs) = none := by
  by_contra h
  cases fs with
  | nil =>
    obtain ⟨⟨new, n⟩, hfound⟩ := Option.ne_none_iff_exists'.1 h
    obtain ⟨-, find, word, value, rest, heq, hfind, -⟩ := argument_eq_some hfound
    rw [written, List.append_nil] at heq
    exact hy (by rw [heq, hfind.eq]; simp)
  | cons f fs =>
    have htext : y ++ written mark (f :: fs) =
        (y ++ mark :: f.key) ++ '=' :: (f.value ++ written '&' fs) := by
      simp [written]
    have hequals : '=' ∉ y ++ mark :: f.key := by
      rw [List.mem_append, not_or]
      exact ⟨hy, equals_notMem_cons_key hmark f⟩
    rw [htext] at h
    exact (argument_append_equals hequals h).1.mark_notMem hmark (by simp)

/-- Where an argument is found in a key, the key ends in the word `password`. -/
theorem endsInPassword_of_argument {f : Field} {before : Option Char} {x y rest : Text}
    (hxy : mark :: f.key = x ++ y) (h : argument (x.getLast?.or before) (y ++ '=' :: rest) ≠ none) :
    EndsInPassword f.key ∧ rest ≠ [] := by
  have hequals : '=' ∉ y := fun hmem =>
    equals_notMem_cons_key hmark f (by rw [hxy]; exact List.mem_append_right x hmem)
  obtain ⟨hword, hbefore, hrest⟩ := argument_append_equals hequals h
  refine ⟨?_, hrest⟩
  cases x with
  | nil =>
    obtain rfl : mark :: f.key = y := hxy
    exact absurd List.mem_cons_self (hword.mark_notMem hmark)
  | cons d x =>
    refine ⟨x, y, (List.cons.inj hxy).2, hword, fun c hc => ?_⟩
    rwa [Recogniser.getLast?_cons_or, Option.mem_def.1 hc] at hbefore

/-- Behind a key that ends in the word `password` an argument goes on to the end of the text. -/
theorem replaces_argument_of_endsInPassword {f : Field} (hkey : EndsInPassword f.key) {tail : Text}
    (hne : tail ≠ []) (htail : ∀ c ∈ tail, isBlank c = false) (before : Option Char) :
    Recogniser.Replaces argument before (mark :: (f.key ++ '=' :: tail)) (mark :: f.hidden.text) := by
  obtain ⟨front, word, hsplit, hword, hfront⟩ := hkey
  have hlast : ((mark :: front).getLast?.or before).any isWord = false := by
    rw [Recogniser.getLast?_cons_or]
    cases hlast : front.getLast? with
    | none => exact isWord_of_mark hmark
    | some c => exact hfront c hlast
  have hend : ∀ c ∈ ([] : Text).head?, isBlank c = true := by simp
  have hfound := argument_append ⟨rfl, hword, hne, htail⟩ hlast hend
  obtain ⟨c, find, hcons⟩ := List.exists_cons_of_ne_nil (l := word ++ '=' :: tail) (by simp)
  rw [hcons] at hfound
  have hput := Recogniser.Replaces.put hfound .done
  rw [← hcons, List.append_nil, List.append_nil] at hput
  have hkeep : Recogniser.Replaces argument before ((mark :: front) ++ (word ++ '=' :: tail))
      ((mark :: front) ++ maskedArgument word) := by
    refine .keep_append (fun x y hxy hy => ?_) hput
    by_contra hnot
    rw [← List.append_assoc] at hnot
    have hequals : '=' ∉ y ++ word := fun hmem => equals_notMem_cons_key hmark f <| by
      rw [hsplit, ← List.cons_append, hxy, List.append_assoc]
      exact List.mem_append_right x hmem
    -- the word would be longer than `password`
    have hlength := (argument_append_equals hequals hnot).1.length_eq
    rw [List.length_append, hword.length_eq] at hlength
    exact hy (List.eq_nil_of_length_eq_zero (by omega))
  simpa [Field.hidden, Field.text, maskedArgument, hsplit] using hkeep

end

/-- Masking arguments hides all that follows the first key that ends in the word `password`. -/
theorem replaces_argument_written {mark : Char} (hmark : mark = '?' ∨ mark = '&')
    (before : Option Char) (fs : List Field) :
    Recogniser.Replaces argument before (written mark fs) (written mark (upToArgument fs)) := by
  induction fs generalizing mark before with
  | nil => exact .done
  | cons f fs ih =>
    rw [upToArgument]
    split
    · next hcut =>
      obtain ⟨hkey, hne⟩ := hcut
      have htail : f.value ++ written '&' fs ≠ [] := by
        rcases hne with hne | hne
        · simp [hne]
        · obtain ⟨g, gs, rfl⟩ := List.exists_cons_of_ne_nil hne
          simp [written]
      have hblank : ∀ c ∈ f.value ++ written '&' fs, isBlank c = false := fun c hc =>
        (List.mem_append.1 hc).elim (fun hc => isBlank_of_isPlain (f.isPlain_value c hc))
          (isBlank_of_mem_written (Or.inr rfl) c)
      simpa [written, Field.text] using
        replaces_argument_of_endsInPassword hmark hkey htail hblank before
    · next hcut =>
      have hkeep : Recogniser.Replaces argument before
          ((mark :: f.key) ++ ('=' :: f.value ++ written '&' fs))
          ((mark :: f.key) ++ ('=' :: f.value ++ written '&' (upToArgument fs))) := by
        refine .keep_append (fun x y hxy hy => ?_) (.keep_append (fun x y hxy hy => ?_)
          (ih (Or.inr rfl) _))
        · by_contra hfound
          obtain ⟨hkey, hrest⟩ := endsInPassword_of_argument hmark hxy hfound
          refine hcut ⟨hkey, ?_⟩
          by_contra hempty
          simp only [not_or, not_not] at hempty
          exact hrest (by simp [hempty, written])
        · cases x with
          | nil =>
            obtain rfl : '=' :: f.value = y := hxy
            refine Option.eq_none_iff_forall_ne_some.2 ?_
            rintro ⟨new, n⟩ hfound
            obtain ⟨c, hc, -, -, hc'⟩ := begins_argument _ _ _ _ hfound
            obtain rfl : '=' = c := Option.some.inj hc
            exact absurd hc' (by decide)
          | cons d x =>
            refine argument_append_written (Or.inr rfl) (fun hmem => ?_) fs
            refine notMem_of_isPlain f.isPlain_value (a := '=') (by decide) ?_
            rw [(List.cons.inj hxy).2]
            exact List.mem_append_right x hmem
      simpa [written] using hkeep

/-! ## Masking query strings -/

/-- The parameters are all there if and only if none is taken for an argument but a last one, whose
value is hidden anyway. -/
theorem written_upToArgument_iff (mark : Char) (fs : List Field) :
    written mark (upToArgument fs) = written mark fs ↔
      ∀ front f back, fs = front ++ f :: back → EndsInPassword f.key →
        back = [] ∧ (f.value = [] ∨ f.value = asterisks) := by
  induction fs generalizing mark with
  | nil => simp [upToArgument]
  | cons f fs ih =>
    rw [upToArgument]
    split
    · next hcut =>
      obtain ⟨hkey, hne⟩ := hcut
      have hampersand : '&' ∉ asterisks := by decide
      constructor
      · intro heq front g back hsplit hg
        simp only [written, Field.hidden, List.append_nil, List.cons.injEq, true_and,
          List.append_cancel_left_eq] at heq
        obtain rfl : fs = [] := by
          by_contra hfs
          obtain ⟨g, gs, rfl⟩ := List.exists_cons_of_ne_nil hfs
          exact hampersand (by rw [heq, written]; simp)
        have hfront : front = [] ∧ back = [] := by
          have := congrArg List.length hsplit
          simp only [List.length_cons, List.length_nil, List.length_append] at this
          exact ⟨List.eq_nil_of_length_eq_zero (by omega), List.eq_nil_of_length_eq_zero (by omega)⟩
        obtain ⟨rfl, rfl⟩ := hfront
        obtain rfl : f = g := (List.cons.inj hsplit).1
        exact ⟨rfl, Or.inr (by simpa [written] using heq.symm)⟩
      · intro h
        obtain ⟨rfl, hvalue⟩ := h [] f fs rfl hkey
        have hstars : f.value = asterisks := hvalue.resolve_left (hne.resolve_right (by simp))
        simp [written, Field.hidden, hstars]
    · next hcut =>
      have hcons : written mark (f :: upToArgument fs) = written mark (f :: fs) ↔
          written '&' (upToArgument fs) = written '&' fs := by
        simp [written]
      rw [hcons, ih '&']
      constructor
      · intro h front g back hsplit hg
        cases front with
        | nil =>
          obtain ⟨rfl, rfl⟩ := List.cons.inj hsplit
          have hlast : f.value = [] ∧ fs = [] := by
            by_contra hnot
            exact hcut ⟨hg, by tauto⟩
          exact ⟨hlast.2, Or.inl hlast.1⟩
        | cons e front => exact h front g back (List.cons.inj hsplit).2 hg
      · intro h front g back hsplit
        exact h (f :: front) g back (by rw [hsplit]; rfl)

theorem upToArgument_ne_nil {fs : List Field} (h : fs ≠ []) : upToArgument fs ≠ [] := by
  obtain ⟨f, fs, rfl⟩ := List.exists_cons_of_ne_nil h
  rw [upToArgument]
  split <;> exact List.cons_ne_nil _ _

/-- Masking hides the secrets of a query string, and then what it takes for an argument. -/
theorem mask_text_eq (q : Query) : mask q.text = q.masked.text := by
  by_cases hne : q.fields = []
  · -- without parameters there is nothing to be hidden
    have hmasked : q.masked.text = q.text := by
      simp [Query.text, Query.masked, hne, upToArgument]
    rw [hmasked]
    have hpath {a : Char} (ha : isPlain a = false) (hmark : a ≠ '?') : a ∉ q.text := by
      simp [Query.text, hne, Text.joinWith, notMem_of_isPlain q.isPlain_path ha, hmark]
    exact mask_eq_self (hpath (by decide) (by decide)) (hpath (by decide) (by decide))
  · have hredacted : q.fields.map Field.redacted ≠ [] := by simpa using hne
    have hcolon : ':' ∉ q.text := by
      rw [Query.text_eq hne, List.mem_append, not_or]
      exact ⟨notMem_of_isPlain q.isPlain_path (by decide),
        notMem_written (by decide) (by decide) (by decide) (by decide) q.fields⟩
    have hparameter : parameter.replaced q.text =
        q.path ++ written '?' (q.fields.map Field.redacted) := by
      rw [Query.text_eq hne]
      refine (Recogniser.Replaces.keep_append (fun x y hxy hy => ?_)
        (replaces_parameter_written (Or.inl rfl) _ _)).eq_substitute.symm
      refine Option.eq_none_iff_forall_ne_some.2 ?_
      rintro ⟨new, n⟩ hfound
      obtain ⟨c, hc, -, hmark⟩ := begins_parameter _ _ _ _ hfound
      have hmem : c ∈ q.path := by
        obtain ⟨d, y, rfl⟩ := List.exists_cons_of_ne_nil hy
        obtain rfl : d = c := Option.some.inj hc
        simp [hxy]
      rcases hmark with rfl | rfl <;> exact notMem_of_isPlain q.isPlain_path (by decide) hmem
    have hargument : argument.replaced (q.path ++ written '?' (q.fields.map Field.redacted)) =
        q.path ++ written '?' (upToArgument (q.fields.map Field.redacted)) := by
      refine (Recogniser.Replaces.keep_append (fun x y hxy hy => ?_)
        (replaces_argument_written (Or.inl rfl) _ _)).eq_substitute.symm
      refine argument_append_written (Or.inl rfl) (fun hmem => ?_) _
      exact notMem_of_isPlain q.isPlain_path (a := '=') (by decide) (by rw [hxy]; simp [hmem])
    rw [mask, replaced_userPassword_eq_self hcolon, hparameter, hargument,
      Query.text_eq (upToArgument_ne_nil hredacted)]
    rfl

/-- **What masking leaves of a query string.** The values of the parameters that hold secrets are
hidden; and behind the first key that ends in the whole word `password`, all that follows the equals
sign is hidden, if anything does. So exactly the secrets are hidden if and only if such a key is that
of the last parameter only, and its value is hidden for its own sake, empty, or hidden already. -/
theorem mask_query (q : Query) :
    mask q.text = q.masked.text ∧
      (mask q.text = q.redacted.text ↔
        ∀ front f back, q.fields = front ++ f :: back → EndsInPassword f.key →
          back = [] ∧ (IsSecretName f.key ∨ f.value = [] ∨ f.value = asterisks)) := by
  refine ⟨mask_text_eq q, ?_⟩
  have hkey (f : Field) : f.redacted.key = f.key := by
    unfold Field.redacted
    split <;> rfl
  have hvalue (f : Field) : f.redacted.value = [] ∨ f.redacted.value = asterisks ↔
      IsSecretName f.key ∨ f.value = [] ∨ f.value = asterisks := by
    unfold Field.redacted
    split
    · next hname => simp [hname, Field.hidden]
    · next hname => simp [hname]
  have htext : q.masked.text = q.redacted.text ↔
      written '?' (upToArgument (q.fields.map Field.redacted)) =
        written '?' (q.fields.map Field.redacted) := by
    by_cases hne : q.fields = []
    · simp [Query.text, Query.masked, Query.redacted, hne, upToArgument]
    · have hredacted : q.fields.map Field.redacted ≠ [] := by simpa using hne
      rw [Query.text_eq (upToArgument_ne_nil hredacted), Query.text_eq hredacted]
      exact List.append_right_inj q.path
  rw [mask_text_eq, htext, written_upToArgument_iff]
  constructor
  · intro h front f back hsplit hf
    have := h (front.map Field.redacted) f.redacted (back.map Field.redacted) (by simp [hsplit])
      (by rwa [hkey])
    simpa [hvalue] using this
  · intro h front g back hsplit hg
    obtain ⟨front', rest, hfields, rfl, hrest⟩ := List.map_eq_append_iff.1 hsplit
    obtain ⟨f, back', rfl, rfl, rfl⟩ := List.map_eq_cons_iff.1 hrest
    rw [hkey] at hg
    simpa [hvalue] using h front' f back' hfields hg

/-- A password behind other parameters. -/
def signIn : Query where
  path := "Auth.svc/SignIn"
  fields :=
    [{ key := "top", value := "1" }, { key := "Token", value := "abc" },
      { key := "skip", value := "2" }, { key := "PASSWORD", value := "hunter2" }]

/-- In the last place a password is hidden like every other secret. -/
theorem mask_query_signIn :
    signIn.text = "Auth.svc/SignIn?top=1&Token=abc&skip=2&PASSWORD=hunter2".toList ∧
      mask signIn.text = "Auth.svc/SignIn?top=1&Token=****&skip=2&PASSWORD=****".toList := by
  have hmask := (mask_query signIn).1
  have htext : signIn.masked.text =
      "Auth.svc/SignIn?top=1&Token=****&skip=2&PASSWORD=****".toList := by decide
  exact ⟨by decide, hmask.trans htext⟩

/-- A password in front of another parameter. -/
def listOrders : Query where
  path := "Order.svc/Orders"
  fields := [{ key := "password", value := "hunter2" }, { key := "top", value := "1" }]

/-- A parameter behind a password is lost. -/
theorem mask_drops_parameter :
    listOrders.text = "Order.svc/Orders?password=hunter2&top=1".toList ∧
      listOrders.redacted.text = "Order.svc/Orders?password=****&top=1".toList ∧
      mask listOrders.text = "Order.svc/Orders?password=****".toList ∧
      mask listOrders.text ≠ listOrders.redacted.text := by
  decide +kernel

/-- A key that only ends in the word `password` is no secret, but its value is hidden. -/
example : mask "Set?my-password=a" = "Set?my-password=****".toList := by decide +kernel

end ScriptAudit.Redaction
