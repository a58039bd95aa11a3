import ScriptAudit.Proofs.Number.Bits
import ScriptAudit.Proofs.Output.Averages

/-!
# Slow calls

A call is slow if its average is above a limit. The warnings of slow calls come from the averages
that are written plainly: no rounding can set the two readings of such an average apart
(`slow_of_average`), but a slow call whose average is written in another way goes without a warning
(`warnings_eq_nil_of_number`).

* `plainAverages_cases` — an entry has one plain average, that of its call, or none.
* `warnings_of_statistics` — which slow calls there are warnings of.
-/

namespace ScriptAudit

open Json (Field Row)
open Statistics (Layout entry)
open Trace (Readable)

/-! ## The average of a call -/

/-- The number that digits stand for. -/
def Numeral.ofDigits (ds : Text) : Nat := Numeral.value (ds.filterMap decimalValue?)

namespace Statistics

/-- The average of a call is that of its entry. -/
theorem exists_average {fields : List (Text × Json)} {c : ServerCall}
    (h : entry (.obj fields) = .ok c) : ∃ v x, Json.get? "Avg" fields = some v ∧
      floatOf v = .ok x ∧ c.average = .float x := by
  rw [entry] at h
  obtain ⟨url, -, h⟩ := bind_eq_ok_iff.1 h
  obtain ⟨count, -, h⟩ := bind_eq_ok_iff.1 h
  obtain ⟨n, -, h⟩ := bind_eq_ok_iff.1 h
  obtain ⟨v, hv, h⟩ := bind_eq_ok_iff.1 h
  obtain ⟨x, hx, h⟩ := bind_eq_ok_iff.1 h
  obtain ⟨longest, -, h⟩ := bind_eq_ok_iff.1 h
  obtain ⟨y, -, h⟩ := bind_eq_ok_iff.1 h
  obtain ⟨shortest, -, h⟩ := bind_eq_ok_iff.1 h
  obtain ⟨z, -, h⟩ := bind_eq_ok_iff.1 h
  obtain rfl := Except.ok.inj h
  exact ⟨v, x, required_eq_ok_iff.1 hv, hx, rfl⟩

theorem floatOf_digits {ds : Text} (hne : ds ≠ []) (hds : ∀ c ∈ ds, isDecimal c = true) :
    floatOf (.str ds) = .ok (Binary64.ofDecimal false (Numeral.ofDigits ds) 0) := by
  have hnone : ∀ c ∈ ([] : Text), isDecimal c = true := nofun
  have hfloat := Numeral.float?_of_isDecimal hne hds hnone (Or.inl ⟨rfl, rfl⟩)
  simp only [List.append_nil, List.length_nil, Int.natCast_zero, Int.neg_zero] at hfloat
  rw [floatOf, hfloat]
  rfl

/-- Whether each object names its average once. -/
def Layout.Once (l : Layout) : Prop := ∀ ps ∈ l.fields, (ps.map Prod.fst).count "Avg".toList = 1

/-- A plain average is read as it stands. -/
theorem eq_of_plain {p : Text × Json} {f : Field} (hf : f.Reads p) {ds : Text}
    (h : f.plainAverage? = some ds) :
    p = ("Avg".toList, .str ds) ∧ ds ≠ [] ∧ ∀ c ∈ ds, isDecimal c = true := by
  obtain ⟨hname, -, hvalue, hne, hds⟩ := Field.plainAverage?_eq_some_iff.1 h
  obtain ⟨key, v⟩ := p
  have hkey : Json.string? none ("Avg".toList ++ ['"']) = some (key, []) := hname ▸ hf.name []
  have hkey : some ("Avg".toList, ([] : Text)) = some (key, []) := hkey
  obtain ⟨w, s, hw, rfl, hread⟩ :=
    (hvalue ▸ hf.value : Json.Stands v ('"' :: (ds ++ ['"']))).exists_string
  obtain rfl : ds = w := List.append_cancel_right hw
  have hstring : some (ds, ([] : Text)) = some (s, []) :=
    (string?_digits hds []).symm.trans (hread [])
  obtain rfl : "Avg".toList = key := by simpa using hkey
  obtain rfl : ds = s := by simpa using hstring
  exact ⟨rfl, hne, hds⟩

theorem plainAverage?_of_ne {p : Text × Json} {f : Field} (hf : f.Reads p)
    (hp : p.1 ≠ "Avg".toList) : f.plainAverage? = none :=
  Option.eq_none_iff_forall_ne_some.2 fun _ hds => hp (congrArg Prod.fst (eq_of_plain hf hds).1)

/-- An object without the name has no plain average. -/
theorem filterMap_of_notMem {ps : List (Text × Json)} {fs : List Field}
    (h : List.Forall₂ Field.Reads ps fs) (hnone : "Avg".toList ∉ ps.map Prod.fst) :
    fs.filterMap Field.plainAverage? = [] := by
  induction h with
  | nil => rfl
  | cons hf _ ih =>
    rw [List.map_cons, List.mem_cons, not_or] at hnone
    rw [List.filterMap_cons_none (plainAverage?_of_ne hf (Ne.symm hnone.1)), ih hnone.2]

/-- An object with one such name has the plain average that stands there, if it is one. -/
theorem filterMap_of_count_eq_one {ps : List (Text × Json)} {fs : List Field}
    (h : List.Forall₂ Field.Reads ps fs) (hone : (ps.map Prod.fst).count "Avg".toList = 1) :
    ∃ v, ∃ f : Field, ("Avg".toList, v) ∈ ps ∧ (∀ p ∈ ps, p.1 = "Avg".toList → p.2 = v) ∧
      f.Reads ("Avg".toList, v) ∧ fs.filterMap Field.plainAverage? = f.plainAverage?.toList := by
  induction h with
  | nil => cases hone
  | @cons p f ps fs hf hfs ih =>
    rw [List.map_cons, List.count_cons] at hone
    split at hone
    · next hp =>
      have hp : p.1 = "Avg".toList := eq_of_beq hp
      have hnone : "Avg".toList ∉ ps.map Prod.fst := List.count_eq_zero.1 (by omega)
      obtain ⟨key, v⟩ := p
      obtain rfl : key = _ := hp
      refine ⟨v, f, List.mem_cons_self, List.forall_mem_cons.2 ⟨fun _ => rfl, fun q hq hkey => ?_⟩,
        hf, ?_⟩
      · exact absurd (hkey ▸ List.mem_map_of_mem hq) hnone
      · rw [List.filterMap_cons, filterMap_of_notMem hfs hnone]
        cases f.plainAverage? <;> rfl
    · next hp =>
      have hp : p.1 ≠ "Avg".toList := fun heq => hp (beq_iff_eq.2 heq)
      obtain ⟨v, f', hmem, honly, hf', heq⟩ := ih hone
      refine ⟨v, f', List.mem_cons_of_mem p hmem,
        List.forall_mem_cons.2 ⟨fun hkey => absurd hkey hp, honly⟩, hf', ?_⟩
      rw [List.filterMap_cons_none (plainAverage?_of_ne hf hp), heq]

/-- An object that names its average once has one plain average, that of its call, or none. -/
theorem plainAverages_cases {ps : List (Text × Json)} {r : Row} {c : ServerCall} (hr : r.Reads ps)
    (hone : (ps.map Prod.fst).count "Avg".toList = 1) (hc : entry (Json.ofFields ps) = .ok c) :
    r.plainAverages = [] ∨ ∃ ds, r.plainAverages = [ds] ∧
      c.average = .float (Binary64.ofDecimal false (Numeral.ofDigits ds) 0) := by
  obtain ⟨v, f, hmem, honly, hf, hplain⟩ := filterMap_of_count_eq_one hr.fields hone
  obtain ⟨v', x, hv', hx, haverage⟩ := exists_average hc
  obtain rfl : v = v' := Option.some.inj ((Json.get?_ofFields hmem honly).symm.trans hv')
  rw [Row.plainAverages, hplain]
  cases hds : f.plainAverage? with
  | none => exact Or.inl rfl
  | some ds =>
    obtain ⟨hpair, hne, hdigits⟩ := eq_of_plain hf hds
    obtain rfl : v = .str ds := congrArg Prod.snd hpair
    rw [floatOf_digits hne hdigits] at hx
    obtain rfl := Except.ok.inj hx
    exact Or.inr ⟨ds, rfl, haverage⟩

end Statistics

/-! ## Warnings -/

namespace Finding

/-- The warning that the interface is out of date. -/
def deprecations (raw : Text) : List Text :=
  if Text.contains "deprecated" raw || Text.contains "Deprecated" raw then
    ["Deprecated API usage detected".toList]
  else []

/-- The warning of a slow call, with the digits of its average. -/
def slowText (ds : Text) : Text :=
  "Slow API call detected (" ++ Text.ofNat (Numeral.ofDigits ds) ++ "ms average)".toList

/-- The warnings of an average. -/
def slowTexts (ds : Text) : List Text :=
  if slowAverage < Numeral.ofDigits ds then [slowText ds] else []

/-- Whether the average of a call is above the limit. -/
def Slow (c : ServerCall) : Bool := (Number.int slowAverage).less c.average

/-- The warning of a call, if it is slow and its average is written plainly. -/
def slowWarning? (p : ServerCall × Row) : Option Text :=
  if Slow p.1 then p.2.plainAverages.head?.map slowText else none

theorem averageWarning_of_readable {ds : Text} (h : Readable ds) :
    averageWarning ds = .ok (slowTexts ds) := by
  rw [averageWarning, Trace.count, if_neg (Nat.not_lt.2 h)]
  show (if _ then _ else _) = _
  rw [slowTexts, Numeral.ofDigits]
  split <;> rfl

theorem slow_of_average {c : ServerCall} {n : Nat}
    (h : c.average = .float (Binary64.ofDecimal false n 0)) : Slow c = decide (slowAverage < n) := by
  rw [Slow, h]
  exact Binary64.less_ofDecimal (by decide)

theorem warnings_of_readable {raw : Text}
    (h : ∀ ds ∈ quotedAverage.occurrences raw, Readable ds) : warnings raw =
      .ok (deprecations raw ++ (quotedAverage.occurrences raw).flatMap slowTexts) := by
  have hmap : (quotedAverage.occurrences raw).mapM averageWarning =
      .ok ((quotedAverage.occurrences raw).map slowTexts) := by
    generalize quotedAverage.occurrences raw = averages at h
    induction averages with
    | nil => rfl
    | cons ds averages ih =>
      obtain ⟨hds, haverages⟩ := List.forall_mem_cons.1 h
      rw [List.mapM_cons, averageWarning_of_readable hds, ih haverages]
      rfl
  rw [warnings, hmap]
  rfl

/-- The warning of an object is that of its call. -/
theorem flatMap_plainAverages {ps : List (Text × Json)} {r : Row} {c : ServerCall}
    (hr : r.Reads ps) (hone : (ps.map Prod.fst).count "Avg".toList = 1)
    (hc : entry (Json.ofFields ps) = .ok c) :
    r.plainAverages.flatMap slowTexts = (slowWarning? (c, r)).toList := by
  rw [slowWarning?]
  rcases Statistics.plainAverages_cases hr hone hc with hnil | ⟨ds, hds, haverage⟩
  · simp [hnil]
  · by_cases hslow : slowAverage < Numeral.ofDigits ds <;>
      simp [hds, slowTexts, slow_of_average haverage, hslow]

/-- The warnings of the objects are those of their calls. -/
theorem flatMap_rows {pss : List (List (Text × Json))} {rs : List Row} {calls : List ServerCall}
    (hrows : List.Forall₂ Row.Reads pss rs)
    (hone : ∀ ps ∈ pss, (ps.map Prod.fst).count "Avg".toList = 1)
    (hcalls : (pss.map Json.ofFields).mapM entry = .ok calls) :
    (rs.flatMap Row.plainAverages).flatMap slowTexts = (calls.zip rs).filterMap slowWarning? := by
  induction hrows generalizing calls with
  | nil =>
    rw [List.zip_nil_right]
    rfl
  | cons hr hrs ih =>
    obtain ⟨hps, hpss⟩ := List.forall_mem_cons.1 hone
    rw [List.map_cons, List.mapM_cons] at hcalls
    obtain ⟨c, hc, hcalls⟩ := bind_eq_ok_iff.1 hcalls
    obtain ⟨calls, hrest, hcalls⟩ := bind_eq_ok_iff.1 hcalls
    obtain rfl := Except.ok.inj hcalls
    rw [List.flatMap_cons, List.flatMap_append, flatMap_plainAverages hr hps hc, ih hpss hrest,
      List.zip_cons_cons, List.filterMap_cons]
    cases slowWarning? (c, _) <;> rfl

/-- There are as many warnings as slow calls exactly if none of these is passed over. -/
theorem length_filterMap_slowWarning?_iff {calls : List ServerCall} {rs : List Row}
    (h : calls.length = rs.length) :
    ((calls.zip rs).filterMap slowWarning?).length = (calls.filter Slow).length ↔
      ∀ p ∈ calls.zip rs, Slow p.1 = true → p.2.plainAverages ≠ [] := by
  have hsome (p : ServerCall × Row) :
      (slowWarning? p).isSome = (!p.2.plainAverages.isEmpty && Slow p.1) := by
    rw [slowWarning?]
    cases Slow p.1 <;> cases p.2.plainAverages <;> rfl
  have hwarned : ((calls.zip rs).filterMap slowWarning?).length =
      ((calls.zip rs).filter fun p => Slow p.1).countP fun p => !p.2.plainAverages.isEmpty := by
    rw [List.length_filterMap_eq_countP, List.countP_filter]
    simp only [hsome]
  have hslow : (calls.filter Slow).length = ((calls.zip rs).filter fun p => Slow p.1).length := by
    conv_lhs => rw [← List.map_fst_zip h.le, List.filter_map, List.length_map]
    rfl
  rw [hwarned, hslow, List.countP_eq_length]
  simp only [List.mem_filter, and_imp, Bool.not_eq_true', List.isEmpty_eq_false_iff]

/-- **The warnings of slow calls are those of the averages that are written plainly.** Calls that
are read have a layout in the output. For each layout in which `"Avg"` stands at the names of fields
only, the averages that are found are the plain ones; there are warnings if these are not too long,
and then, if each object names its average once, they are in order those of the slow calls with
plain averages. So there is one for each slow call exactly if each slow call has a plain average. -/
theorem warnings_of_statistics {raw : Text} {calls : List ServerCall}
    (hread : Statistics.read raw = .ok calls) (hne : calls ≠ []) :
    (∃ l : Layout, l.Shows raw calls) ∧
      ∀ l : Layout, l.Shows raw calls → l.NamesOnly raw →
        quotedAverage.occurrences raw = l.rows.flatMap Row.plainAverages ∧
        (Answers (warnings raw) ↔ ∀ r ∈ l.rows, ∀ ds ∈ r.plainAverages, Readable ds) ∧
        (l.Once → Answers (warnings raw) →
          warnings raw = .ok (deprecations raw ++ (calls.zip l.rows).filterMap slowWarning?) ∧
          (((calls.zip l.rows).filterMap slowWarning?).length = (calls.filter Slow).length ↔
            ∀ p ∈ calls.zip l.rows, Slow p.1 = true → p.2.plainAverages ≠ [])) := by
  refine ⟨Statistics.exists_layout hread hne, fun l hl hnames => ?_⟩
  have hfound := occurrences_of_shows hl hnames
  have hanswers : Answers (warnings raw) ↔
      ∀ r ∈ l.rows, ∀ ds ∈ r.plainAverages, Readable ds := by
    rw [answers_warnings_iff, hfound, List.forall_mem_flatMap]
  refine ⟨hfound, hanswers, fun hone hanswer => ⟨?_, ?_⟩⟩
  · rw [warnings_of_readable (answers_warnings_iff.1 hanswer), hfound,
      flatMap_rows hl.rows hone hl.calls]
  · refine length_filterMap_slowWarning?_iff ?_
    rw [length_of_mapM hl.calls, List.length_map, hl.rows.length_eq]

/-! ## Averages of several forms -/

/-- An entry on one line with an average that is written in this way. -/
def entryWith (average : Text) : Row where
  before := []
  fields := [⟨[], "Url", [], " ", "\"a\"", []⟩, ⟨" ", "Count", [], " ", "1", []⟩,
    ⟨" ", "Avg", [], " ", average, []⟩, ⟨" ", "Max", [], " ", "1", []⟩,
    ⟨" ", "Min", [], " ", "1", []⟩]
  behind := []

/-- The names and values of the entry. -/
def fieldsWith (average : Json) : List (Text × Json) :=
  [("Url", .str "a"), ("Count", .num (.int 1)), ("Avg", average), ("Max", .num (.int 1)),
    ("Min", .num (.int 1))]

/-- Entries with averages that are written in these ways. -/
def layoutWith (averages : List (Text × Json)) : Layout where
  before := []
  rows := averages.map fun p => entryWith p.1
  fields := averages.map fun p => fieldsWith p.2
  behind := []

/-- An output that consists of these entries. -/
def outputWith (averages : List (Text × Json)) : Text := Json.arrayOf (layoutWith averages).rows

theorem reads_entryWith {v : Json} {average : Text} (h : Json.Stands v average) :
    (entryWith average).Reads (fieldsWith v) := by
  have hnone : Json.IsGap [] := by decide
  have hspace : Json.IsGap " " := by decide
  have hone : Json.Stands (.num (.int 1)) "1" := ⟨1, [], rfl⟩
  have hurl : Json.Stands (.str "a") "\"a\"" := ⟨1, [], rfl⟩
  exact ⟨hnone, hnone, .cons ⟨⟨hnone, hnone, hspace, hnone⟩, fun _ => rfl, hurl⟩ <|
    .cons ⟨⟨hspace, hnone, hspace, hnone⟩, fun _ => rfl, hone⟩ <|
    .cons ⟨⟨hspace, hnone, hspace, hnone⟩, fun _ => rfl, h⟩ <|
    .cons ⟨⟨hspace, hnone, hspace, hnone⟩, fun _ => rfl, hone⟩ <|
    .cons ⟨⟨hspace, hnone, hspace, hnone⟩, fun _ => rfl, hone⟩ .nil⟩

theorem shows_layoutWith {averages : List (Text × Json)} {calls : List ServerCall}
    (h : ∀ p ∈ averages, Json.Stands p.2 p.1)
    (hcalls : ((layoutWith averages).fields.map Json.ofFields).mapM entry = .ok calls) :
    (layoutWith averages).Shows (outputWith averages) calls where
  text := (List.append_nil _).symm
  rows := List.forall₂_map_left_iff.2 (List.forall₂_map_right_iff.2
    (List.forall₂_same.2 fun p hp => reads_entryWith (h p hp)))
  calls := hcalls

theorem read_outputWith {averages : List (Text × Json)} {calls : List ServerCall}
    (hentries : Statistics.entries (outputWith averages) =
      (layoutWith averages).fields.map Json.ofFields)
    (hcalls : ((layoutWith averages).fields.map Json.ofFields).mapM entry = .ok calls) :
    Statistics.read (outputWith averages) = .ok calls := by
  rw [Statistics.read_eq_settle, hentries, hcalls]
  rfl

theorem once_layoutWith (averages : List (Text × Json)) : (layoutWith averages).Once :=
  List.forall_mem_map.2 fun _ _ => by
    show ((["Url", "Count", "Avg", "Max", "Min"] : List String).map String.toList).count _ = 1
    decide

theorem namesOnly_of_tails {l : Layout} {raw : Text} (h : ∀ s ∈ raw.tails,
    "\"Avg\"".toList <+: s → s ∈ (Row.starts l.rows (']' :: l.behind)).map Prod.snd) :
    l.NamesOnly raw := by
  intro s hs hprefix
  obtain ⟨p, hp, rfl⟩ := List.mem_map.1 (h s ((List.mem_tails s raw).2 hs) hprefix)
  exact ⟨p.1, hp⟩

/-- The same average as a string and as a number. -/
def bothForms : List (Text × Json) := [("\"12000\"", .str "12000"), ("12000", .num (.int 12000))]

set_option maxRecDepth 20000 in
theorem entries_bothForms : Statistics.entries (outputWith bothForms) =
    (layoutWith bothForms).fields.map Json.ofFields := rfl

theorem warnings_of_statistics_bothForms : ∃ calls,
    Statistics.read (outputWith bothForms) = .ok calls ∧ calls ≠ [] ∧
      (layoutWith bothForms).Shows (outputWith bothForms) calls ∧
      (layoutWith bothForms).NamesOnly (outputWith bothForms) ∧ (layoutWith bothForms).Once ∧
      warnings (outputWith bothForms) = .ok (deprecations (outputWith bothForms) ++
        (calls.zip (layoutWith bothForms).rows).filterMap slowWarning?) := by
  obtain ⟨calls, hcalls, hlength⟩ := Redaction.exists_eq_ok
    (e := ((layoutWith bothForms).fields.map Json.ofFields).mapM entry)
    (p := fun calls => !calls.isEmpty) (by decide +kernel)
  have hne : calls ≠ [] := by simpa using hlength
  have hread := read_outputWith entries_bothForms hcalls
  have hshows : (layoutWith bothForms).Shows (outputWith bothForms) calls :=
    shows_layoutWith (List.forall_mem_cons.2 ⟨⟨1, [], rfl⟩,
      List.forall_mem_singleton.2 ⟨1, [], rfl⟩⟩) hcalls
  have hnames : (layoutWith bothForms).NamesOnly (outputWith bothForms) :=
    namesOnly_of_tails (by decide +kernel)
  have hanswers : Answers (warnings (outputWith bothForms)) := by decide +kernel
  obtain ⟨-, hall⟩ := warnings_of_statistics hread hne
  obtain ⟨-, -, hwarnings⟩ := hall _ hshows hnames
  exact ⟨calls, hread, hne, hshows, hnames, once_layoutWith _,
    (hwarnings (once_layoutWith _) hanswers).1⟩

/-- An average as a number. -/
def numberForm : List (Text × Json) := [("12000", .num (.int 12000))]

set_option maxRecDepth 20000 in
theorem entries_numberForm : Statistics.entries (outputWith numberForm) =
    (layoutWith numberForm).fields.map Json.ofFields := rfl

/-- There is no warning of a slow call whose average is a number. -/
theorem warnings_eq_nil_of_number : ∃ c,
    Statistics.read (outputWith numberForm) = .ok [c] ∧ Slow c = true ∧
      (layoutWith numberForm).Shows (outputWith numberForm) [c] ∧
      (layoutWith numberForm).NamesOnly (outputWith numberForm) ∧
      warnings (outputWith numberForm) = .ok [] := by
  obtain ⟨calls, hcalls, hslow⟩ := Redaction.exists_eq_ok
    (e := ((layoutWith numberForm).fields.map Json.ofFields).mapM entry)
    (p := fun calls => calls.length == 1 && calls.all Slow) (by decide +kernel)
  obtain ⟨hlength, hslow⟩ := Bool.and_eq_true_iff.1 hslow
  obtain ⟨c, rfl⟩ := List.length_eq_one_iff.1 (eq_of_beq hlength)
  exact ⟨c, read_outputWith entries_numberForm hcalls, by simpa using hslow,
    shows_layoutWith (List.forall_mem_singleton.2 ⟨1, [], rfl⟩) hcalls,
    namesOnly_of_tails (by decide +kernel), rfl⟩

end Finding

end ScriptAudit
