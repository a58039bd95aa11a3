import ScriptAudit.Proofs.Json.Layout
import ScriptAudit.Proofs.Number.Decimal
import ScriptAudit.Proofs.Output.Entries
import ScriptAudit.Proofs.Output.ErrorOutput

/-!
# The array that ends the output

The statistics stand at the end of the output, in front of blanks and perhaps of the error output.
Nothing in the strings of an array can be taken for its first or its last bracket, nor for the
separator of the error output, which holds line ends.

* `start?_append`, `beforeEnd?_append` — where the array is found.
* `Told` — objects whose values are strings; `Entry.IsLaidOut` — those that hold an entry.
* `read_arrayOf` — entries are read back, whatever their layout is.
-/

namespace ScriptAudit.Statistics

open Json (Field Row IsGap Spells)

/-! ## Where the array stands -/

/-- Whether an array of objects may begin somewhere in a text. -/
def Opens (t : Text) : Prop := ∃ x gap y, t = x ++ '[' :: (gap ++ '{' :: y) ∧ Text.blank gap = true

theorem trimLeft_append_cons_of_blank {gap : Text} (hgap : Text.blank gap = true) {c : Char}
    (hc : isBlank c = false) (t : Text) : Text.trimLeft (gap ++ c :: t) = c :: t := by
  rw [Text.trimLeft_append, if_pos hgap]
  exact Text.trimLeft_eq_self (by simpa using hc)

/-- The array begins where it has been put, unless one may begin further ahead. -/
theorem start?_append {before gap : Text} (hbefore : ¬ Opens before) (hgap : Text.blank gap = true)
    (t : Text) : start? (before ++ '[' :: (gap ++ '{' :: t)) = some before.length := by
  induction before with
  | nil => simp [start?, trimLeft_append_cons_of_blank hgap (c := '{') (by decide)]
  | cons c cs ih =>
    have hcs : ¬ Opens cs := by
      rintro ⟨x, gap, y, rfl, hgap⟩
      exact hbefore ⟨c :: x, gap, y, rfl, hgap⟩
    have hfirst : (c = '[' && (Text.trimLeft (cs ++ '[' :: (gap ++ '{' :: t))).head? = some '{') =
        false := by
      rw [Bool.and_eq_false_iff, decide_eq_false_iff_not, decide_eq_false_iff_not]
      refine or_iff_not_imp_left.2 fun hc hopen => ?_
      obtain rfl : c = '[' := not_not.1 hc
      rw [Text.trimLeft_append] at hopen
      split at hopen
      · rw [Text.trimLeft_eq_self (by simp [isBlank])] at hopen
        cases hopen
      · next hblank =>
        have hne : Text.trimLeft cs ≠ [] := fun hnil => hblank <| List.all_eq_true.2 fun c hc =>
          List.dropWhile_eq_nil_iff.1 hnil c hc
        rw [List.head?_append_of_ne_nil _ hne] at hopen
        obtain ⟨y, hy⟩ := List.head?_eq_some_iff.1 hopen
        refine hbefore ⟨[], cs.takeWhile isBlank, y, ?_, List.all_takeWhile⟩
        rw [← hy, Text.trimLeft, List.takeWhile_append_dropWhile, List.nil_append]
    rw [List.cons_append, start?, hfirst, ih hcs]
    rfl

theorem beforeEnd?_append {gap trailing : Text} (hgap : Text.blank gap = true)
    (htrailing : Text.blank trailing = true) (t : Text) :
    beforeEnd? (t ++ '}' :: (gap ++ ']' :: trailing)) = some t := by
  have hreverse {s : Text} (hs : Text.blank s = true) : ∀ c ∈ s.reverse, isBlank c = true :=
    fun c hc => List.all_eq_true.1 hs c (List.mem_reverse.1 hc)
  have hend : (t ++ '}' :: (gap ++ ']' :: trailing)).reverse.dropWhile isBlank =
      ']' :: (gap.reverse ++ '}' :: t.reverse) := by
    simp [List.dropWhile_append_of_pos (hreverse htrailing), isBlank]
  have hbrace : (gap.reverse ++ '}' :: t.reverse).dropWhile isBlank = '}' :: t.reverse := by
    rw [List.dropWhile_append_of_pos (hreverse hgap)]
    rfl
  rw [beforeEnd?, hend]
  simp only [hbrace, List.reverse_reverse]

/-- The array that ends the output is found with all that stands behind it. -/
theorem array?_append {before gap gap' trailing t : Text} (hbefore : ¬ Opens before)
    (hgap : Text.blank gap = true) (hgap' : Text.blank gap' = true)
    (htrailing : Text.blank trailing = true)
    (hmute : Text.contains separator
      (before ++ '[' :: (gap ++ '{' :: (t ++ '}' :: (gap' ++ ']' :: trailing)))) = false) :
    array? (before ++ '[' :: (gap ++ '{' :: (t ++ '}' :: (gap' ++ ']' :: trailing)))) =
      some ('[' :: (gap ++ '{' :: (t ++ '}' :: (gap' ++ ']' :: trailing)))) := by
  have hend := beforeEnd?_append hgap' htrailing (before ++ '[' :: (gap ++ '{' :: t))
  rw [List.append_assoc, List.cons_append, List.append_assoc, List.cons_append] at hend
  have hself := Text.before_eq_self hmute
  simp only [array?, hself, hend, start?_append hbefore hgap, Option.bind_eq_bind, Option.bind_some,
    List.drop_left]
  rfl

/-! ## Arrays of entries -/

theorem isBlank_of_isSpace {c : Char} (h : Json.isSpace c = true) : isBlank c = true := by
  simp only [Json.isSpace, Bool.or_eq_true, beq_iff_eq] at h
  rcases h with ((rfl | rfl) | rfl) | rfl <;> decide

theorem blank_of_isGap {t : Text} (h : IsGap t) : Text.blank t = true :=
  List.all_eq_true.2 fun c hc => isBlank_of_isSpace (h c hc)

/-- The first and the last brace of an array of objects. -/
theorem exists_arrayOf_eq {rs : List Row} (hne : rs ≠ [])
    (h : ∀ r ∈ rs, IsGap r.before ∧ IsGap r.behind) : ∃ gap t gap', IsGap gap ∧ IsGap gap' ∧
      Json.arrayOf rs = '[' :: (gap ++ '{' :: (t ++ '}' :: (gap' ++ [']']))) := by
  suffices hinside : ∃ gap t gap', IsGap gap ∧ IsGap gap' ∧
      Text.joinWith [','] (rs.map Row.text) = gap ++ '{' :: (t ++ '}' :: gap') by
    obtain ⟨gap, t, gap', hgap, hgap', heq⟩ := hinside
    exact ⟨gap, t, gap', hgap, hgap', by rw [Json.arrayOf, heq]; simp⟩
  induction rs with
  | nil => exact absurd rfl hne
  | cons r rs ih =>
    obtain ⟨hr, hrs⟩ := List.forall_mem_cons.1 h
    cases rs with
    | nil =>
      exact ⟨r.before, Text.joinWith [','] (r.fields.map Field.text), r.behind, hr.1, hr.2, by
        simp [Text.joinWith, Row.text, Row.object]⟩
    | cons r' rs =>
      obtain ⟨gap, t, gap', -, hgap', heq⟩ := ih (List.cons_ne_nil r' rs) hrs
      refine ⟨r.before, Text.joinWith [','] (r.fields.map Field.text) ++
        '}' :: (r.behind ++ ',' :: (gap ++ '{' :: t)), gap', hr.1, hgap', ?_⟩
      rw [List.map_cons, Text.joinWith_cons _ (by simp), heq]
      simp [Row.text, Row.object]

/-! ## Entries as they are written -/

/-- Whether a field is laid out with this name and this string for its value. -/
def Tells (p : Text × Text) (f : Field) : Prop :=
  f.Spaced ∧ Spells p.1 f.name ∧ ∃ inside, f.value = '"' :: (inside ++ ['"']) ∧ Spells p.2 inside

/-- Whether an object is laid out with these names and strings. -/
structure Told (ps : List (Text × Text)) (r : Row) : Prop where
  before : IsGap r.before
  behind : IsGap r.behind
  fields : List.Forall₂ Tells ps r.fields

/-- A name with a string for its value. -/
def stringField (p : Text × Text) : Text × Json := (p.1, .str p.2)

theorem Tells.holds {p : Text × Text} {f : Field} (h : Tells p f) : f.Holds (stringField p) := by
  obtain ⟨hspaced, hname, inside, hvalue, hinside⟩ := h
  exact ⟨hspaced, hname, hvalue ▸ Json.delimits_string hinside⟩

theorem Told.holds {ps : List (Text × Text)} {r : Row} (h : Told ps r) (hne : ps ≠ []) :
    r.Holds (ps.map stringField) where
  before := h.before
  behind := h.behind
  ne_nil := mt List.map_eq_nil_iff.1 hne
  fields := List.forall₂_map_left_iff.2 (h.fields.imp fun _ _ => Tells.holds)

/-! ## No separator in the array -/

theorem forall_mem_of_forall₂ {α β : Type} {R : α → β → Prop} {P : β → Prop} {as : List α}
    {bs : List β} (h : List.Forall₂ R as bs) (hP : ∀ a b, R a b → P b) : ∀ b ∈ bs, P b := by
  induction h with
  | nil => exact nofun
  | cons hab _ ih => exact List.forall_mem_cons.2 ⟨hP _ _ hab, ih⟩

theorem not_separator_of_notMem {a : Char} (ha : a ∈ separator) {t : Text} (h : a ∉ t) :
    ¬ separator <:+: t := fun hin => h (hin.subset ha)

theorem not_separator_of_isGap {t : Text} (h : IsGap t) : ¬ separator <:+: t :=
  not_separator_of_notMem (a := '-') (by decide) fun hmem => absurd (h '-' hmem) (by decide)

/-- Strings stand on one line. -/
theorem newline_notMem_of_spells {s t : Text} (h : Spells s t) : '\n' ∉ t := by
  have hdigits {a b c d : Char} {n : Nat} (hn : Json.hexValue? [a, b, c, d] = some n) :
      '\n' ∉ [a, b, c, d] := by
    intro hmem
    have hdigit := Json.isSome_hexDigit?_of_mem hn _ hmem
    exact absurd hdigit (by decide)
  induction h with
  | nil => exact List.not_mem_nil
  | @char c s t _ _ hcontrol _ ih =>
    rw [List.mem_cons, not_or]
    refine ⟨?_, ih⟩
    rintro rfl
    exact absurd hcontrol (by decide)
  | @escape e c s t he _ ih =>
    rw [List.mem_cons, List.mem_cons, not_or, not_or]
    refine ⟨by decide, ?_, ih⟩
    rintro rfl
    cases he
  | unicode hn _ _ ih =>
    have := hdigits hn
    simp_all
  | pair hhigh _ hlow _ _ ih =>
    have := hdigits hhigh
    have := hdigits hlow
    simp_all

theorem not_separator_of_spells {s t : Text} (h : Spells s t) : ¬ separator <:+: t :=
  not_separator_of_notMem (a := '\n') (by decide) (newline_notMem_of_spells h)

theorem Tells.not_separator {p : Text × Text} {f : Field} (h : Tells p f) :
    ¬ separator <:+: f.text := by
  obtain ⟨hspaced, hname, inside, hvalue, hinside⟩ := h
  have hquote : '"' ∉ separator := by decide
  have hcolon : ':' ∉ separator := by decide
  have htext : f.text = f.before ++ '"' :: (f.name ++ '"' :: (f.gap ++ ':' :: (f.space ++
      '"' :: (inside ++ '"' :: f.behind)))) := by
    simp [Field.text, Field.named, hvalue]
  rw [htext, Text.infix_append_cons_iff hquote, Text.infix_append_cons_iff hquote,
    Text.infix_append_cons_iff hcolon, Text.infix_append_cons_iff hquote,
    Text.infix_append_cons_iff hquote]
  simp [not_separator_of_isGap hspaced.before, not_separator_of_spells hname,
    not_separator_of_isGap hspaced.gap, not_separator_of_isGap hspaced.space,
    not_separator_of_spells hinside, not_separator_of_isGap hspaced.behind]

/-- No separator stands in what is joined with commas, if none stands in the parts. -/
theorem not_separator_joinWith {ts : List Text} (h : ∀ t ∈ ts, ¬ separator <:+: t) :
    ¬ separator <:+: Text.joinWith [','] ts := by
  rw [Text.joinWith_iff (P := fun t => separator <:+: t) (by decide)
    fun _ _ => Text.infix_append_cons_iff (by decide)]
  rintro ⟨t, ht, hin⟩
  exact h t ht hin

theorem Told.not_separator {ps : List (Text × Text)} {r : Row} (h : Told ps r) :
    ¬ separator <:+: r.text := by
  have hfields : ∀ t ∈ r.fields.map Field.text, ¬ separator <:+: t := by
    exact List.forall_mem_map.2 (forall_mem_of_forall₂ h.fields fun _ _ => Tells.not_separator)
  have htext : r.text = r.before ++ '{' :: (Text.joinWith [','] (r.fields.map Field.text) ++
      '}' :: r.behind) := by
    simp [Row.text, Row.object]
  rw [htext, Text.infix_append_cons_iff (by decide), Text.infix_append_cons_iff (by decide)]
  simp [not_separator_of_isGap h.before, not_separator_joinWith hfields,
    not_separator_of_isGap h.behind]

theorem not_separator_of_blank {t : Text} (h : Text.blank t = true) : ¬ separator <:+: t :=
  not_separator_of_notMem (a := '-') (by decide) fun hmem =>
    absurd (List.all_eq_true.1 h '-' hmem) (by decide)

/-! ## Reading entries back -/

/-- What an entry tells: an address, and figures as they are written. -/
structure Entry where
  url : Text
  count : Text
  average : Text
  longest : Text
  shortest : Text

namespace Entry

/-- The names of the fields of an entry. -/
def names : List Text := ["Url", "Count", "Avg", "Max", "Min"]

/-- The fields of an entry. -/
def fields (e : Entry) : List (Text × Text) :=
  names.zip [e.url, e.count, e.average, e.longest, e.shortest]

/-- Whether an entry tells what is known of the calls to an address. -/
structure Means (e : Entry) (c : ServerCall) : Prop where
  url : c.url = .str e.url
  count : ∃ n : Nat, Numeral.IsWhole e.count n ∧ c.count = .int n
  average : ∃ x, Numeral.IsNumeral e.average x ∧ c.average = .float x
  longest : ∃ x, Numeral.IsNumeral e.longest x ∧ c.longest = .float x
  shortest : ∃ x, Numeral.IsNumeral e.shortest x ∧ c.shortest = .float x

/-- Whether an object holds an entry: its fields in any order, with fields of other names. -/
def IsLaidOut (e : Entry) (r : Row) : Prop :=
  ∃ others ps, ps.Perm (e.fields ++ others) ∧ (∀ p ∈ others, p.1 ∉ names) ∧ Told ps r

end Entry

section

variable {e : Entry} {others ps : List (Text × Text)} (hperm : ps.Perm (e.fields ++ others))
  (hothers : ∀ p ∈ others, p.1 ∉ Entry.names)
include hperm hothers

theorem get?_of_mem_fields {key v : Text} (hmem : (key, v) ∈ e.fields) :
    Json.get? key ((ps.map stringField).foldl (fun done p => Json.put p.1 p.2 done) []) =
      some (.str v) := by
  have hnames : e.fields.map Prod.fst = Entry.names := rfl
  have hdistinct : (e.fields.map Prod.fst).Nodup := hnames ▸ by decide
  refine Json.get?_ofFields (List.mem_map.2 ⟨_, hperm.mem_iff.2 (List.mem_append_left _ hmem), rfl⟩)
    (List.forall_mem_map.2 fun q hq (hkey : q.1 = key) => congrArg Json.str ?_)
  rcases List.mem_append.1 (hperm.mem_iff.1 hq) with hq | hq
  · rw [List.inj_on_of_nodup_map hdistinct hq hmem hkey]
  · refine absurd ?_ (hothers q hq)
    rw [hkey, ← hnames]
    exact List.mem_map_of_mem hmem

/-- An entry is read back, however it is laid out. -/
theorem entry_ofFields {c : ServerCall} (h : e.Means c) :
    entry (Json.ofFields (ps.map stringField)) = .ok c := by
  obtain ⟨url, count, average, longest, shortest⟩ := c
  obtain ⟨rfl, ⟨n, hn, rfl⟩, ⟨x, hx, rfl⟩, ⟨y, hy, rfl⟩, ⟨z, hz, rfl⟩⟩ := h
  have hint : intOf (.str e.count) = .ok n := by
    rw [intOf, Numeral.int?_of_isWhole hn]
    rfl
  have hfloat {t : Text} {x : Float} (hx : Numeral.IsNumeral t x) : floatOf (.str t) = .ok x := by
    rw [floatOf, Numeral.float?_of_isNumeral hx]
  have hfield (key : String) (v : Text) (hmem : (key.toList, v) ∈ e.fields) :
      required key ((ps.map stringField).foldl (fun done p => Json.put p.1 p.2 done) []) =
        .ok (.str v) := required_eq_ok_iff.2 (get?_of_mem_fields hperm hothers hmem)
  have hurl := hfield "Url" e.url (by simp [Entry.fields, Entry.names])
  have hcount := hfield "Count" e.count (by simp [Entry.fields, Entry.names])
  have haverage := hfield "Avg" e.average (by simp [Entry.fields, Entry.names])
  have hlongest := hfield "Max" e.longest (by simp [Entry.fields, Entry.names])
  have hshortest := hfield "Min" e.shortest (by simp [Entry.fields, Entry.names])
  rw [Json.ofFields, entry, hurl, hcount, haverage, hlongest, hshortest]
  show (intOf _ >>= fun n => floatOf _ >>= fun x => floatOf _ >>= fun y =>
    floatOf _ >>= fun z => _) = _
  rw [hint, hfloat hx, hfloat hy, hfloat hz]
  rfl

end

/-- The objects in which entries are laid out, and what is read from them. -/
theorem exists_holds {es : List Entry} {calls : List ServerCall} {rs : List Row}
    (hcalls : List.Forall₂ Entry.Means es calls) (hrows : List.Forall₂ Entry.IsLaidOut es rs) :
    ∃ pss, List.Forall₂ (fun ps r => Row.Holds ps r) pss rs ∧
      (pss.map Json.ofFields).mapM entry = .ok calls := by
  induction hcalls generalizing rs with
  | nil =>
    cases hrows
    exact ⟨[], .nil, rfl⟩
  | cons hcall hcalls ih =>
    cases hrows with
    | cons hrow hrows =>
      obtain ⟨others, ps, hperm, hothers, htold⟩ := hrow
      obtain ⟨pss, hheld, hread⟩ := ih hrows
      have hne : ps ≠ [] := by
        rintro rfl
        exact absurd hperm.nil_eq (by simp [Entry.fields, Entry.names])
      refine ⟨ps.map stringField :: pss, .cons (htold.holds hne) hheld, ?_⟩
      rw [List.map_cons, List.mapM_cons, entry_ofFields hperm hothers hcall, hread]
      rfl

theorem not_separator_arrayOf {es : List Entry} {rs : List Row}
    (hrows : List.Forall₂ Entry.IsLaidOut es rs) {before trailing : Text}
    (hbefore : ¬ separator <:+: before) (htrailing : Text.blank trailing = true) :
    ¬ separator <:+: before ++ (Json.arrayOf rs ++ trailing) := by
  have hparts : ∀ t ∈ rs.map Row.text, ¬ separator <:+: t :=
    List.forall_mem_map.2 (forall_mem_of_forall₂ hrows fun _ _ ⟨_, _, _, _, htold⟩ =>
      htold.not_separator)
  have htext : before ++ (Json.arrayOf rs ++ trailing) =
      before ++ '[' :: (Text.joinWith [','] (rs.map Row.text) ++ ']' :: trailing) := by
    simp [Json.arrayOf]
  rw [htext, Text.infix_append_cons_iff (by decide), Text.infix_append_cons_iff (by decide)]
  simp [hbefore, not_separator_joinWith hparts, not_separator_of_blank htrailing]

theorem array?_arrayOf {rs : List Row} (hne : rs ≠ [])
    (hgaps : ∀ r ∈ rs, IsGap r.before ∧ IsGap r.behind) {before trailing : Text}
    (hbefore : ¬ Opens before) (htrailing : Text.blank trailing = true)
    (hmute : ¬ separator <:+: before ++ (Json.arrayOf rs ++ trailing)) :
    array? (before ++ (Json.arrayOf rs ++ trailing)) = some (Json.arrayOf rs ++ trailing) := by
  obtain ⟨gap, t, gap', hgap, hgap', harray⟩ := exists_arrayOf_eq hne hgaps
  have heq : Json.arrayOf rs ++ trailing =
      '[' :: (gap ++ '{' :: (t ++ '}' :: (gap' ++ ']' :: trailing))) := by
    simp [harray]
  rw [← Text.contains_iff_infix, Bool.not_eq_true] at hmute
  rw [heq] at hmute ⊢
  exact array?_append hbefore (blank_of_isGap hgap) (blank_of_isGap hgap') htrailing hmute

/-- The error output behind an output without a separator is not read. -/
theorem read_append_errorOutput {raw tail : Text} (hmute : ¬ separator <:+: raw ++ ['\n'])
    (htail : tail = [] ∨ ∃ e, tail = separator ++ e) : read (raw ++ tail) = read raw := by
  rcases htail with rfl | ⟨e, rfl⟩
  · rw [List.append_nil]
  · have hline : Text.contains separator (raw ++ ['\n']) = false := by
      rwa [← Bool.not_eq_true, Text.contains_iff_infix]
    have hraw : Text.contains separator raw = false := by
      rw [← Bool.not_eq_true, Text.contains_iff_infix]
      exact fun h => hmute (h.trans (List.prefix_append raw ['\n']).isInfix)
    have houtput : output raw = raw := by
      rw [output, Text.cut?_eq_none hline]
      rfl
    have hread := read_append hraw e
    rwa [houtput] at hread

/-- **The statistics are read back, whatever their layout is.** For entries that are laid out as an
array of objects, behind an output in which no such array may begin and in front of blanks and
perhaps the error output, the calls of the entries are read, if the blanks are white space as there
may be between the tokens of the array. In front of other blanks nothing is read. -/
theorem read_arrayOf {es : List Entry} {calls : List ServerCall} {rs : List Row} (hne : es ≠ [])
    (hcalls : List.Forall₂ Entry.Means es calls) (hrows : List.Forall₂ Entry.IsLaidOut es rs)
    {before trailing tail : Text} (hbefore : ¬ Opens before) (hmarker : ¬ separator <:+: before)
    (htrailing : Text.blank trailing = true) (htail : tail = [] ∨ ∃ e, tail = separator ++ e) :
    read (before ++ (Json.arrayOf rs ++ (trailing ++ tail))) =
      .ok (if IsGap trailing then calls else []) := by
  obtain ⟨pss, hheld, hread⟩ := exists_holds hcalls hrows
  have hne' : rs ≠ [] := by
    rintro rfl
    cases hrows
    exact hne rfl
  have hgaps : ∀ r ∈ rs, IsGap r.before ∧ IsGap r.behind :=
    forall_mem_of_forall₂ hheld fun _ _ hr => ⟨hr.before, hr.behind⟩
  have hmute : ¬ separator <:+: before ++ (Json.arrayOf rs ++ trailing) :=
    not_separator_arrayOf hrows hmarker htrailing
  have hself : read (before ++ (Json.arrayOf rs ++ (trailing ++ tail))) =
      read (before ++ (Json.arrayOf rs ++ trailing)) := by
    have hblank : Text.blank (trailing ++ ['\n']) = true := by
      have hbreak : isBlank '\n' = true := by decide
      simpa [Text.blank, hbreak] using htrailing
    have hline := not_separator_arrayOf hrows hmarker hblank
    rw [← List.append_assoc, ← List.append_assoc, List.append_assoc before] at hline
    have hskip := read_append_errorOutput hline htail
    rwa [List.append_assoc, List.append_assoc] at hskip
  have hfound := array?_arrayOf hne' hgaps hbefore htrailing hmute
  have hpss : pss ≠ [] := by
    rintro rfl
    cases hheld
    exact hne' rfl
  rw [hself, Statistics.read, hfound, Option.bind_some, Json.read?_arrayOf hheld hpss]
  by_cases htrail : IsGap trailing
  · have hskip : Json.skipSpace trailing = [] := List.dropWhile_eq_nil_iff.2 htrail
    rw [hskip, if_pos htrail]
    simp [hread]
  · have hskip : Json.skipSpace trailing ≠ [] := mt List.dropWhile_eq_nil_iff.1 htrail
    rw [if_neg (by simpa using hskip), if_neg htrail]

/-! ## Entries on one line -/

/-- A field on one line. -/
def lineField (p : Text × Text) : Field where
  before := []
  name := p.1.flatMap Json.escape
  gap := []
  space := [' ']
  value := Json.string p.2
  behind := []

/-- An entry on one line. -/
def Entry.line (e : Entry) : Row := ⟨[], e.fields.map lineField, []⟩

/-- There is a layout for every entry. -/
theorem Entry.isLaidOut_line (e : Entry) : e.IsLaidOut e.line := by
  have hnone : IsGap [] := by decide
  have hspace : IsGap [' '] := by decide
  have hfield (p : Text × Text) : Tells p (lineField p) :=
    ⟨⟨hnone, hnone, hspace, hnone⟩, Json.spells_escapes p.1, p.2.flatMap Json.escape, rfl,
      Json.spells_escapes p.2⟩
  refine ⟨[], e.fields, by simp, nofun, hnone, hnone, ?_⟩
  exact List.forall₂_map_right_iff.2 (List.forall₂_same.2 fun p _ => hfield p)

/-- An address that looks like the ends of an array and like a separator, with fractions. -/
def trickyEntry : Entry := ⟨"[\x7b\"\x7d]\n--- STDERR ---\n", "2", "1.5", "1.5", "1.5"⟩

/-- What the entry tells. -/
def trickyCall : ServerCall :=
  ⟨.str trickyEntry.url, .int 2, .float (Binary64.ofDecimal false 15 (-1)),
    .float (Binary64.ofDecimal false 15 (-1)), .float (Binary64.ofDecimal false 15 (-1))⟩

theorem trickyEntry_means : trickyEntry.Means trickyCall := by
  have hdigits {ds : Text} (h : ds.all (fun c => decide (isDecimal c = true)) = true) :
      ∀ c ∈ ds, isDecimal c = true := Text.forall_mem_of_all h
  have hwhole : Numeral.IsWhole "2" 2 := ⟨by decide, hdigits (by decide), by decide, rfl⟩
  have hnumeral : Numeral.IsNumeral "1.5" (Binary64.ofDecimal false 15 (-1)) :=
    ⟨[], false, "1", ".5", "5", [], 0, rfl, by decide, by decide, hdigits (by decide),
      ⟨hdigits (by decide), Or.inr ⟨by decide, rfl⟩⟩, Or.inl ⟨rfl, rfl⟩, rfl⟩
  exact ⟨rfl, ⟨2, hwhole, rfl⟩, ⟨_, hnumeral, rfl⟩, ⟨_, hnumeral, rfl⟩, ⟨_, hnumeral, rfl⟩⟩

theorem read_arrayOf_tricky :
    ¬ Opens "Log [1]\n" ∧ ¬ separator <:+: "Log [1]\n".toList ∧ Text.blank "\r\n" = true ∧
      read ("Log [1]\n" ++ (Json.arrayOf [trickyEntry.line] ++
        ("\r\n".toList ++ (separator ++ "[\x7b".toList)))) =
          .ok (if IsGap "\r\n" then [trickyCall] else []) := by
  have hbefore : ¬ Opens "Log [1]\n" := by
    rintro ⟨x, gap, y, h, -⟩
    have hmem : '{' ∈ x ++ '[' :: (gap ++ '{' :: y) := by simp
    rw [← h] at hmem
    exact absurd hmem (by decide)
  have hmarker : ¬ separator <:+: "Log [1]\n".toList := by decide
  exact ⟨hbefore, hmarker, by decide, read_arrayOf (List.cons_ne_nil _ _)
    (.cons trickyEntry_means .nil) (.cons trickyEntry.isLaidOut_line .nil) hbefore hmarker
    (by decide) (Or.inr ⟨_, rfl⟩)⟩

/-- A form feed behind the array empties the statistics. -/
theorem read_eq_nil_of_formFeed : trickyEntry.Means trickyCall ∧
    trickyEntry.IsLaidOut trickyEntry.line ∧ Text.blank "\x0c" = true ∧
      read (Json.arrayOf [trickyEntry.line] ++ "\x0c".toList) = .ok [] := by
  obtain ⟨calls, hcalls, hempty⟩ := Redaction.exists_eq_ok
    (e := read (Json.arrayOf [trickyEntry.line] ++ "\x0c".toList)) (p := List.isEmpty)
    (by decide +kernel)
  rw [List.isEmpty_iff.1 hempty] at hcalls
  exact ⟨trickyEntry_means, trickyEntry.isLaidOut_line, by decide, hcalls⟩

end ScriptAudit.Statistics
