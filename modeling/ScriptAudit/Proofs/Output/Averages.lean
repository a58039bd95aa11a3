import ScriptAudit.Output.Finding
import ScriptAudit.Proofs.Json.Places
import ScriptAudit.Proofs.Json.Reading
import ScriptAudit.Proofs.Number.Bits
import ScriptAudit.Proofs.Number.Decimal
import ScriptAudit.Proofs.Output.Array
import ScriptAudit.Proofs.Output.Entries
import ScriptAudit.Proofs.Output.Figures
import ScriptAudit.Proofs.Output.Reading

/-!
# Averages in an output

The averages of calls are read twice: with the statistics, where they may be written as any number or
numeral, and by a search of the whole output, which sees only those that are written plainly.

* `Field.plainAverage?` — the average of a field that is written plainly.
* `quotedAverage_named` — what is found at the name of a field.
* `Statistics.Layout` — the statistics as they stand in an output; there is a layout whenever calls
  are read (`exists_layout`).
* `occurrences_of_shows` — the averages that are found, if the name stands nowhere else.
-/

namespace ScriptAudit

open Json (Field Row)

/-! ## Plain averages -/

namespace Json

/-- The digits of an average that is written plainly: the name as it is, a colon directly behind it,
and nothing but digits between quotation marks. -/
def Field.plainAverage? (f : Field) : Option Text :=
  let ds := (f.value.drop 1).takeWhile isDecimal
  if f.name = "Avg".toList ∧ f.gap = [] ∧ ds ≠ [] ∧ f.value = '"' :: (ds ++ ['"']) then some ds
  else none

/-- The averages of an object that are written plainly. -/
def Row.plainAverages (r : Row) : List Text := r.fields.filterMap Field.plainAverage?

theorem Field.plainAverage?_eq_some_iff {f : Field} {ds : Text} : f.plainAverage? = some ds ↔
    f.name = "Avg".toList ∧ f.gap = [] ∧ f.value = '"' :: (ds ++ ['"']) ∧ ds ≠ [] ∧
      ∀ c ∈ ds, isDecimal c = true := by
  rw [plainAverage?, Option.ite_none_right_eq_some]
  constructor
  · rintro ⟨⟨hname, hgap, hne, hvalue⟩, h⟩
    obtain rfl := Option.some.inj h
    exact ⟨hname, hgap, hvalue, hne, fun _ => List.mem_takeWhile_imp⟩
  · rintro ⟨hname, hgap, hvalue, hne, hds⟩
    have hrun : (f.value.drop 1).takeWhile isDecimal = ds := by
      rw [hvalue, List.drop_one, List.tail_cons,
        Text.takeWhile_append_cons (p := isDecimal) (a := '"') (by decide),
        List.takeWhile_eq_self_iff.2 hds]
    rw [hrun]
    exact ⟨⟨hname, hgap, hne, hvalue⟩, rfl⟩

end Json

theorem le_toNat_of_isDecimal {c : Char} (h : isDecimal c = true) : 48 ≤ c.toNat := by
  by_contra hlt
  have hascii : c.toNat < 128 := by omega
  rw [isDecimal, decimalValue?, if_pos hascii] at h
  split at h
  · next hdigit => exact hlt (toNat_of_isDigit hdigit).1
  · cases h

theorem string?_digits {ds : Text} (h : ∀ c ∈ ds, isDecimal c = true) (rest : Text) :
    Json.string? none (ds ++ '"' :: rest) = some (ds, rest) := by
  refine Json.string?_append (Json.spells_self fun c hc => ?_) rest
  have hdigit := h c hc
  refine ⟨?_, ?_, (by decide : 32 ≤ 48).trans (le_toNat_of_isDecimal hdigit)⟩ <;>
  · rintro rfl
    exact absurd hdigit (by decide)

namespace Finding

section

variable {p : Text × Json} {f : Field} (hf : f.Reads p)
include hf

/-- Blanks behind the colon do not hide the value. -/
theorem trimLeft_value (t : Text) :
    Text.trimLeft (f.space ++ (f.value ++ t)) = f.value ++ t := by
  obtain ⟨c, u, hvalue, hc⟩ := hf.value.exists_cons
  rw [hvalue, List.cons_append]
  exact Statistics.trimLeft_append_cons_of_blank (Statistics.blank_of_isGap hf.spaced.space) hc _

/-- A plain average is found at the name of its field. -/
theorem quotedAverage_of_plain {ds : Text} (h : f.plainAverage? = some ds) (t : Text) :
    ∃ n ≤ f.named.length, quotedAverage none (f.named ++ t) = some (ds, n) := by
  obtain ⟨hname, hgap, hvalue, hne, hds⟩ := Field.plainAverage?_eq_some_iff.1 h
  have hnamed : f.named ++ t =
      "\"Avg\":".toList ++ (f.space ++ (f.value ++ (f.behind ++ t))) := by
    simp [Field.named, hname, hgap]
  have hbehind : f.value ++ (f.behind ++ t) = '"' :: (ds ++ '"' :: (f.behind ++ t)) := by
    simp [hvalue]
  refine ⟨(f.named ++ t).length - (f.behind ++ t).length, ?_, ?_⟩
  · rw [List.length_append, List.length_append]
    omega
  · have hmark : isDecimal '"' = false := by decide
    have hafter (u : Text) : Text.after? ['"'] ('"' :: u) = some u := Text.after?_append ['"'] u
    rw [quotedAverage_eq, hnamed, Text.after?_append, Option.bind_some, trimLeft_value hf, hbehind,
      hafter, Option.bind_some, Text.dropWhile_append_cons hmark, Text.takeWhile_append_cons hmark,
      List.dropWhile_eq_nil_iff.2 hds, List.takeWhile_eq_self_iff.2 hds, List.nil_append, hafter,
      Option.bind_some, if_neg (by simpa using hne)]

/-- What is found at the name of a field is a plain average. -/
theorem plain_of_quotedAverage {t : Text} (h : quotedAverage none (f.named ++ t) ≠ none) :
    ∃ ds, f.plainAverage? = some ds := by
  rw [quotedAverage_eq, Option.ne_none_iff_exists'] at h
  obtain ⟨find, hfind⟩ := h
  obtain ⟨rest, hrest, hbehind⟩ := Option.bind_eq_some_iff.1 hfind
  obtain ⟨u, hu, hinner⟩ := Option.bind_eq_some_iff.1 hbehind
  obtain ⟨left, hleft, hend⟩ := Option.bind_eq_some_iff.1 hinner
  obtain ⟨hne, -⟩ := Option.ite_none_left_eq_some.1 hend
  -- the name ends where the colon stands
  have hopen : f.name ++ '"' :: (f.gap ++ ':' :: (f.space ++ (f.value ++ (f.behind ++ t)))) =
      "Avg".toList ++ '"' :: (':' :: rest) := by
    have := Text.eq_append_of_after? hrest
    simpa [Field.named] using this
  have hplain (rest : Text) : Json.string? none ("Avg".toList ++ '"' :: rest) =
      some ("Avg".toList, rest) := rfl
  obtain ⟨hname, -, hcolon⟩ := Json.eq_of_string?_append hf.name hplain hopen
  have hgap : f.gap = [] := by
    by_contra hsome
    obtain ⟨c, gap, hgap⟩ := List.exists_cons_of_ne_nil hsome
    rw [hgap] at hcolon
    obtain rfl : c = ':' := (List.cons.inj hcolon).1
    exact absurd (hf.spaced.gap ':' (by simp [hgap])) (by decide)
  rw [hgap, List.nil_append] at hcolon
  obtain rfl := (List.cons.inj hcolon).2
  -- the value is the string that begins behind it
  have hvalue := Text.eq_append_of_after? hu
  rw [trimLeft_value hf] at hvalue
  have hdigits := Text.eq_append_of_after? hleft
  obtain ⟨c, inside, hc, -⟩ := hf.value.exists_cons
  rw [hc] at hvalue
  obtain ⟨rfl, hinside⟩ := List.cons.inj hvalue
  obtain ⟨w, s, rfl, -, hread⟩ := (hc ▸ hf.value : Json.Stands p.2 ('"' :: inside)).exists_string
  have hrun : ∀ c ∈ u.takeWhile isDecimal, isDecimal c = true := fun _ => List.mem_takeWhile_imp
  have hstring : w ++ '"' :: (f.behind ++ t) = u.takeWhile isDecimal ++ '"' :: left := by
    calc w ++ '"' :: (f.behind ++ t) = u := by simpa using hinside
      _ = u.takeWhile isDecimal ++ u.dropWhile isDecimal := List.takeWhile_append_dropWhile.symm
      _ = u.takeWhile isDecimal ++ '"' :: left := by rw [hdigits]; rfl
  obtain ⟨rfl, -, -⟩ := Json.eq_of_string?_append hread (string?_digits hrun) hstring
  exact ⟨_, Field.plainAverage?_eq_some_iff.2 ⟨hname, hgap, hc, by simpa using hne, hrun⟩⟩

/-- What is found at the name of a field is an average that is written plainly. -/
theorem quotedAverage_named (t : Text) :
    ∃ n ≤ f.named.length, quotedAverage none (f.named ++ t) = f.plainAverage?.map (·, n) := by
  cases hplain : f.plainAverage? with
  | some ds => exact quotedAverage_of_plain hf hplain t
  | none =>
    refine ⟨0, Nat.zero_le _, ?_⟩
    by_contra hfound
    obtain ⟨ds, hds⟩ := plain_of_quotedAverage hf (t := t) hfound
    rw [hplain] at hds
    cases hds

end

end Finding

/-! ## Statistics in an output -/

namespace Statistics

/-- Statistics as they stand in an output: the objects of the array with their names and values, and
the text around the array. -/
structure Layout where
  before : Text
  rows : List Row
  fields : List (List (Text × Json))
  behind : Text

namespace Layout

/-- Whether these calls stand in an output in this way. -/
structure Shows (l : Layout) (raw : Text) (calls : List ServerCall) : Prop where
  text : raw = l.before ++ (Json.arrayOf l.rows ++ l.behind)
  rows : List.Forall₂ Row.Reads l.fields l.rows
  calls : (l.fields.map Json.ofFields).mapM entry = .ok calls

/-- Whether `"Avg"` stands at the names of fields only. -/
def NamesOnly (l : Layout) (raw : Text) : Prop :=
  ∀ s, s <:+ raw → "\"Avg\"".toList <+: s → ∃ f, (f, s) ∈ Row.starts l.rows (']' :: l.behind)

end Layout

/-- Only objects with fields are entries. -/
theorem exists_of_entry {v : Json} {c : ServerCall} (h : entry v = .ok c) :
    ∃ fields, fields ≠ [] ∧ v = .obj fields := by
  cases v with
  | obj fields =>
    refine ⟨fields, ?_, rfl⟩
    rintro rfl
    cases h
  | _ => cases h

/-- Calls that are read have a layout. -/
theorem exists_layout {raw : Text} {calls : List ServerCall} (hread : read raw = .ok calls)
    (hne : calls ≠ []) : ∃ l : Layout, l.Shows raw calls := by
  have hcalls : (entries raw).mapM entry = .ok calls := by
    rw [read_eq_settle] at hread
    unfold settle at hread
    split at hread
    · cases hread
      assumption
    · cases hread
      exact absurd rfl hne
    · cases hread
  obtain ⟨t, vs, ht, hvs, hentries⟩ : ∃ t vs, array? raw = some t ∧
      Json.read? t = some (.arr vs) ∧ entries raw = vs := by
    unfold entries at hcalls ⊢
    split at hcalls
    · next vs h =>
      obtain ⟨t, ht, hvs⟩ := Option.bind_eq_some_iff.1 h
      exact ⟨t, vs, ht, hvs, rfl⟩
    · cases hcalls
      exact absurd rfl hne
  rw [hentries] at hcalls
  have hobjects : ∀ v ∈ vs, ∃ fields, fields ≠ [] ∧ v = .obj fields := by
    intro v hv
    obtain ⟨c, hc⟩ := answers_mapM_iff.1 ⟨calls, hcalls⟩ v hv
    exact exists_of_entry hc
  have hvs' : vs ≠ [] := by
    rintro rfl
    cases hcalls
    exact hne rfl
  obtain ⟨before, rs, rest, pss, htext, hreads, rfl⟩ :=
    Json.exists_layout_of_read? hvs hvs' hobjects
  obtain ⟨tail, htail⟩ := Text.before_prefix separator raw
  obtain ⟨n, hn⟩ : ∃ n, (Text.before separator raw).drop n = t := by
    simp only [array?, Option.bind_eq_bind, Option.bind_eq_some_iff] at ht
    obtain ⟨_, _, n, _, hn⟩ := ht
    exact ⟨n, Option.some.inj hn⟩
  refine ⟨⟨(Text.before separator raw).take n ++ before, rs, pss, rest ++ tail⟩, ?_, hreads, hcalls⟩
  calc raw = (Text.before separator raw).take n ++ (Text.before separator raw).drop n ++ tail := by
        rw [List.take_append_drop, htail]
    _ = _ := by rw [hn, htext]; simp

end Statistics

/-- **The averages that are found are those that are written plainly.** -/
theorem Finding.occurrences_of_shows {l : Statistics.Layout} {raw : Text} {calls : List ServerCall}
    (h : l.Shows raw calls) (hnames : l.NamesOnly raw) :
    quotedAverage.occurrences raw = l.rows.flatMap Row.plainAverages := by
  have hmarked := Json.Marked.arrayOf l.before l.rows l.behind
  rw [← h.text] at hmarked
  have hblind : ∀ before before' t, quotedAverage before t = quotedAverage before' t :=
    fun _ _ _ => rfl
  have hfields : ∀ r ∈ l.rows, ∀ f ∈ r.fields, ∃ p, Field.Reads p f :=
    Statistics.forall_mem_of_forall₂ h.rows fun _ _ hr =>
      Statistics.forall_mem_of_forall₂ hr.fields fun p _ hf => ⟨p, hf⟩
  rw [hmarked.occurrences_eq (g := Field.plainAverage?) hblind ?_ ?_]
  · have hfirst := List.filterMap_map (f := Prod.fst) (g := Field.plainAverage?)
      (l := Row.starts l.rows (']' :: l.behind))
    rw [Row.map_fst_starts, List.filterMap_flatMap] at hfirst
    exact hfirst.symm
  · intro s hs hsome
    rw [quotedAverage_eq] at hsome
    obtain ⟨find, hfind⟩ := Option.isSome_iff_exists.1 hsome
    obtain ⟨rest, hrest, -⟩ := Option.bind_eq_some_iff.1 hfind
    exact hnames s hs ⟨':' :: rest, (Text.eq_append_of_after? hrest).symm⟩
  · intro p hp t
    have hmem : p.1 ∈ l.rows.flatMap Row.fields := by
      rw [← Row.map_fst_starts l.rows (']' :: l.behind)]
      exact List.mem_map_of_mem hp
    obtain ⟨r, hr, hf⟩ := List.mem_flatMap.1 hmem
    obtain ⟨q, hq⟩ := hfields r hr p.1 hf
    exact quotedAverage_named hq t

end ScriptAudit
