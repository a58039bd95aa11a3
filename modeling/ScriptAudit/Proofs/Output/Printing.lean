import ScriptAudit.Proofs.Number.Decimal
import ScriptAudit.Proofs.Output.Label
import ScriptAudit.Proofs.Output.Verdict

/-!
# Printing and reading a report

A printed report stands behind other output and in front of more of it. Each of its figures is
looked for on its own in the whole, so that each search has to pass over everything in front of its
figure, be it a name or a path that looks like a label (`Recogniser.Passes`).

* `Report.print` — a report as lines with margins.
* `Report.Silent` — what the output in front of a report must not hold.
* `Report.exists_print_eq` — the search for a count passes over all lines before its own.
* `Report.read_print` — the round trip.
-/

namespace ScriptAudit

namespace Report

/-! ## Printing -/

/-- The lines of the type and the name of a report and of its status. -/
def top (margin : Nat → Nat) (r : Report) : Text :=
  row (margin 0) (r.testType.getD [] ++ [' '] ++ r.testName) ++ row (margin 1) r.status.name

/-- The lines of the time of a report, as it is written, and of its file. -/
def middle (margin : Nat → Nat) (time : Text) (r : Report) : Text :=
  row (margin 2) ("time:".toList ++ ' ' :: time) ++
    row (margin 3) ("file:".toList ++ ' ' :: r.filePath)

/-- A count behind its label. -/
def counted (label : Text) (n : Int) : Text := label ++ ' ' :: Text.ofInt n

/-- Lines with counts. -/
def countRows : (margin : Nat → Nat) → List (Text × Int) → Text
  | _, [] => []
  | margin, c :: cs => row (margin 0) (counted c.1 c.2) ++ countRows (fun i => margin (i + 1)) cs

/-- The counts of a report with what stands in front of them. -/
def counts (r : Report) : List (Text × Int) :=
  [("system-out: Server calls:", r.serverCalls), ("Failed server calls:", r.failedServerCalls),
    ("Asserts:", r.asserts), ("Failed asserts:", r.failedAsserts), ("Exceptions:", r.exceptions)]

/-- The lines of a report, each with its margin. -/
def print (margin : Nat → Nat) (time : Text) (r : Report) : Text :=
  top margin r ++ (middle margin time r ++ countRows (fun i => margin (i + 4)) r.counts)

/-- What may stand on the lines of a heading but its words. -/
def isRule (c : Char) : Bool := c == ' ' || c == '=' || c == '-' || c == '\n'

/-- The heading of a report, which may be underlined. -/
def IsHeading (h : Text) : Prop :=
  ∃ margin rule, h = Text.copies margin ' ' ++ ("Test Report".toList ++ (rule ++ ['\n'])) ∧
    ∀ c ∈ rule, isRule c = true

/-- The number that is written as a decimal time: digits, and perhaps a point and more digits. -/
def IsTime (time : Text) (x : Float) : Prop :=
  ∃ whole tenths, whole ≠ [] ∧ (∀ c ∈ whole ++ tenths, isDecimal c = true) ∧
    (tenths = [] ∧ time = whole ∨ tenths ≠ [] ∧ time = whole ++ '.' :: tenths) ∧
    x = Binary64.ofDecimal false (Numeral.value ((whole ++ tenths).filterMap decimalValue?))
      (-tenths.length)

/-- A count that is short enough to be read. -/
def IsCount (n : Int) : Prop := ∃ m : Nat, n = m ∧ (Text.ofNat m).length ≤ Numeral.maxDigits

/-- What a report has to be like to be printed with a time. -/
structure Printable (time : Text) (r : Report) : Prop where
  testType : ∃ type ∈ testTypes, r.testType = some type
  testName : r.testName ≠ [] ∧ ∀ c ∈ r.testName, isBlank c = false
  status : r.status ≠ .error
  seconds : ∃ x, IsTime time x ∧ r.seconds = .float x
  filePath : ∃ name ≠ [], r.filePath = name ++ ".mkd".toList ∧ ∀ c ∈ name, isBlank c = false
  counts : ∀ c ∈ r.counts, IsCount c.2

/-- What makes a report be read, in other output: the ends of labels, and the types of tests. -/
def marks : List Text :=
  ["time:".toList, "file:".toList, "calls:".toList, "sserts:".toList, "Exceptions".toList] ++
    testTypes

/-- Whether an output in front of a report tells nothing of its own. -/
structure Silent (front : Text) : Prop where
  ends : front = [] ∨ front.getLast? = some '\n'
  marks : ∀ mark ∈ marks, ¬ mark <:+: front
  status : (Text.splitAt '\n' front).findSome? Status.ofLine? = none

/-! ## Searching a printed report -/

/-- A label that stands neither in the output in front of a report nor in its first lines. -/
structure Foreign (label : Text) : Prop where
  head : ∃ a, label.head? = some a ∧ a ≠ ' '
  line : '\n' ∉ label
  mark : ∃ mark ∈ marks, mark <:+: label
  types : ∀ type ∈ testTypes, Apart label (type ++ [' '])

section Search

variable {time front rest label : Text} {r : Report} {margin : Nat → Nat} {p : Char → Bool}

theorem passes_front {α : Type} {next : Text × Text → Option (α × Nat)} (hfront : Silent front)
    (hlabel : Foreign label) : (gapped label next).Passes front rest := by
  obtain ⟨mark, hmark, hlabel'⟩ := hlabel.mark
  exact passes_lines hlabel.line (fun hpart => hfront.marks mark hmark (hlabel'.trans hpart))
    hfront.ends

/-- The first lines hold no figure, whatever the name is. -/
theorem passes_top (h : r.Printable time) (hlabel : Foreign label)
    (hstatus : p 'P' = false ∧ p 'F' = false) (hrest : LeadsOut p rest) :
    (gapped label (readRun p)).Passes (top margin r) rest := by
  obtain ⟨a, hhead, ha⟩ := hlabel.head
  obtain ⟨type, htype, heq⟩ := h.testType
  refine Recogniser.Passes.append ?_ ?_
  · rw [heq, Option.getD_some]
    refine passes_row _ _ hhead ha hlabel.line (hlabel.types type htype) h.testName.2 ?_
    rcases hs : r.status with _ | _ | _
    · exact (leadsOut_row rfl (by decide) hstatus.1 _ _).readRun_eq_none
    · exact (leadsOut_row rfl (by decide) hstatus.2 _ _).readRun_eq_none
    · exact absurd hs h.status
  · have hblank (s : Status) : s.name.all (!isBlank ·) = true := by cases s <;> decide
    refine passes_row _ [] hhead ha hlabel.line (fun w hw hne => ?_) (fun c hc => ?_)
      hrest.readRun_eq_none
    · exact absurd (by simpa using hw) hne
    · simpa using List.all_eq_true.1 (hblank r.status) c hc

theorem IsTime.forall_mem {x : Float} (h : IsTime time x) :
    time ≠ [] ∧ ∀ c ∈ time, isDecimal c = true ∨ c = '.' := by
  obtain ⟨whole, tenths, hne, hdigits, htime, -⟩ := h
  rcases htime with ⟨rfl, rfl⟩ | ⟨-, rfl⟩
  · exact ⟨hne, fun c hc => Or.inl (hdigits c (by simpa using hc))⟩
  · refine ⟨by simp, fun c hc => ?_⟩
    rcases List.mem_append.1 hc with hc | hc
    · exact Or.inl (hdigits c (List.mem_append_left _ hc))
    · rcases List.mem_cons.1 hc with rfl | hc
      · exact Or.inr rfl
      · exact Or.inl (hdigits c (List.mem_append_right _ hc))

theorem IsCount.forall_mem {n : Int} (h : IsCount n) :
    Text.ofInt n ≠ [] ∧ ∀ c ∈ Text.ofInt n, isDecimal c = true := by
  obtain ⟨m, rfl, -⟩ := h
  exact ⟨Nat.toDigits_ne_nil, fun c hc => Trace.isDecimal_of_mem_ofNat hc⟩

theorem isUpper_eq_false_of_isDecimal {c : Char} (h : isDecimal c = true) : c.isUpper = false := by
  have hletter : (c.isUpper || c.isLower) = false := isAlpha_eq_false_of_isDecimal h
  exact (Bool.or_eq_false_iff.1 hletter).1

theorem Printable.filePath_forall (h : r.Printable time) : ∀ c ∈ r.filePath, isBlank c = false := by
  obtain ⟨name, -, hpath, hname⟩ := h.filePath
  rw [hpath]
  have hextension : ∀ c ∈ ".mkd".toList, isBlank c = false := Text.forall_mem_of_all (by decide)
  exact fun c hc => (List.mem_append.1 hc).elim (hname c) (hextension c)

/-- The lines of the time and the file hold no count. -/
theorem passes_middle (h : r.Printable time) {a : Char} (hhead : label.head? = some a)
    (ha : a.isUpper = true) (hline : '\n' ∉ label) (hrest : LeadsOut isDecimal rest) :
    (gapped label (readRun isDecimal)).Passes (middle margin time r) rest := by
  have hne {c : Char} (hc : c.isUpper = false) : a ≠ c := by
    rintro rfl
    rw [ha] at hc
    cases hc
  have hother {t : Text} (ht : t.all (fun c => !c.isUpper) = true) : a ∉ t := fun hmem => by
    simpa [ha] using List.all_eq_true.1 ht a hmem
  obtain ⟨x, hx, -⟩ := h.seconds
  refine Recogniser.Passes.append ?_ ?_
  · refine passes_row_of_notMem hhead (hne (by decide)) (hne (by decide)) fun hmem => ?_
    rcases List.mem_append.1 hmem with hmem | hmem
    · exact hother (by decide) hmem
    · rcases List.mem_cons.1 hmem with hmem | hmem
      · exact hne (by decide) hmem
      · rcases hx.forall_mem.2 a hmem with hdigit | hpoint
        · exact hne (isUpper_eq_false_of_isDecimal hdigit) rfl
        · exact hne (by decide) hpoint
  · have hrow := passes_row (margin 3) _ hhead (hne (by decide)) hline
      (apart_of_notMem hhead (hother (t := "file:".toList ++ [' ']) (by decide))) h.filePath_forall
      hrest.readRun_eq_none
    rwa [List.append_assoc] at hrow

/-- A label in front of a count, which another one is not taken for. -/
def Beside (label l : Text) : Prop := l.head?.any Char.isAlpha = true ∧ Apart label (l ++ [' '])

instance (label l : Text) : Decidable (Beside label l) := inferInstanceAs (Decidable (_ ∧ _))

theorem leadsOut_of_isAlpha {l : Text} (hl : l.head?.any Char.isAlpha = true) (margin : Nat)
    (t : Text) : LeadsOut isDecimal (Text.copies margin ' ' ++ (l ++ t)) := by
  obtain ⟨c, hhead, hc⟩ := (Option.any_eq_true _ _).1 hl
  obtain ⟨d, ds, rfl⟩ := List.exists_cons_of_ne_nil (l := l) (by rintro rfl; cases hhead)
  obtain rfl : d = c := Option.some.inj hhead
  refine ⟨margin, d, ds ++ t, rfl, ?_, ?_⟩
  · exact isBlank_eq_false_of_isWord (isWord_of_isAlphanum (by simp [Char.isAlphanum, hc]))
  · rw [← Bool.not_eq_true]
    intro hdigit
    rw [isAlpha_eq_false_of_isDecimal hdigit] at hc
    cases hc

theorem leadsOut_countRows {cs : List (Text × Int)}
    (hlabels : ∀ l ∈ cs.map Prod.fst, l.head?.any Char.isAlpha = true)
    (hrest : LeadsOut isDecimal rest) (margin : Nat → Nat) :
    LeadsOut isDecimal (countRows margin cs ++ rest) := by
  cases cs with
  | nil => exact hrest
  | cons c cs =>
    have := leadsOut_of_isAlpha (hlabels c.1 (by simp)) (margin 0)
      (' ' :: Text.ofInt c.2 ++ ['\n'] ++ (countRows (fun i => margin (i + 1)) cs ++ rest))
    simpa [countRows, row, counted] using this

/-- Lines with other counts are passed over. -/
theorem passes_countRows {cs : List (Text × Int)} (hcs : ∀ c ∈ cs, IsCount c.2)
    {a : Char} (hhead : label.head? = some a) (ha : a ≠ ' ') (hline : '\n' ∉ label)
    (hlabels : ∀ l ∈ cs.map Prod.fst, Beside label l) (hrest : LeadsOut isDecimal rest)
    (margin : Nat → Nat) : (gapped label (readRun isDecimal)).Passes (countRows margin cs) rest := by
  induction cs generalizing margin with
  | nil => exact passes_of_notMem hhead List.not_mem_nil
  | cons c cs ih =>
    have hn : IsCount c.2 := hcs c List.mem_cons_self
    have hnext : LeadsOut isDecimal (countRows (fun i => margin (i + 1)) cs ++ rest) :=
      leadsOut_countRows (fun l hl => (hlabels l (List.mem_cons_of_mem _ hl)).1) hrest _
    have hrow := passes_row (margin 0) _ hhead ha hline (hlabels c.1 (by simp)).2
      (fun d hd => isBlank_eq_false_of_isDecimal (hn.forall_mem.2 d hd)) hnext.readRun_eq_none
    rw [List.append_assoc] at hrow
    exact Recogniser.Passes.append hrow <| ih (fun d hd => hcs d (List.mem_cons_of_mem _ hd))
      (fun l hl => hlabels l (List.mem_cons_of_mem _ hl)) _

/-- The line of a count, behind others and in front of more of them. -/
theorem exists_countRows_eq (margin : Nat → Nat) (pre post : List (Text × Int)) (lead label : Text)
    (n : Int) : ∃ width t, countRows margin (pre ++ (lead ++ label, n) :: post) =
      countRows margin pre ++ (Text.copies width ' ' ++ (lead ++ (counted label n ++ '\n' :: t))) := by
  induction pre generalizing margin with
  | nil => exact ⟨margin 0, _, by simp [countRows, row, counted]; rfl⟩
  | cons c pre ih =>
    obtain ⟨width, t, h⟩ := ih fun i => margin (i + 1)
    exact ⟨width, t, by rw [List.cons_append, countRows, h, countRows, List.append_assoc]⟩

/-- A count behind its label is read up to the end of the line. -/
theorem labelled_counted {n : Int} (hn : IsCount n) (label rest : Text) (before : Option Char) :
    labelled label isDecimal before (counted label n ++ '\n' :: rest) =
      some (Text.ofInt n, 1) := by
  have hdigit (c : Char) (hc : c ∈ Text.ofInt n) : isDecimal c = true ∧ isBlank c = false :=
    ⟨hn.forall_mem.2 c hc, isBlank_eq_false_of_isDecimal (hn.forall_mem.2 c hc)⟩
  rw [counted, List.append_assoc, List.cons_append]
  exact labelled_append hn.forall_mem.1 hdigit (by decide) rest before

theorem counter_eq {label : Recogniser Text} {raw : Text} {n : Int} (hn : IsCount n)
    (h : label.first? raw = some (Text.ofInt n)) : counter label raw = .ok n := by
  obtain ⟨m, rfl, hm⟩ := hn
  rw [counter, h]
  show (Trace.count (Text.ofNat m)).map Int.ofNat = _
  rw [Trace.count_ofNat hm]
  rfl

end Search

/-! ## The counts of a printed report -/

section Counts

variable {time front after lead label : Text} {r : Report} {margin : Nat → Nat} {n : Int} {k : Nat}

theorem isAlpha_of_counts (r : Report) :
    ∀ l ∈ r.counts.map Prod.fst, l.head?.any Char.isAlpha = true := by
  show ∀ l ∈ ["system-out: Server calls:".toList, "Failed server calls:".toList,
    "Asserts:".toList, "Failed asserts:".toList, "Exceptions:".toList], _
  decide

/-- A search for a count comes to its line. -/
theorem exists_print_eq (lead label : Text) (h : r.Printable time) (hfront : Silent front)
    (margin : Nat → Nat) (after : Text)
    (hcounts : r.counts = r.counts.take k ++ (lead ++ label, n) :: r.counts.drop (k + 1)) :
    ∃ u rest, front ++ (print margin time r ++ after) = u ++ (counted label n ++ '\n' :: rest) ∧
      ∀ (label' : Text) (a : Char), Foreign label' → label'.head? = some a → a.isUpper = true →
        (∀ l ∈ (r.counts.take k).map Prod.fst, Beside label' l) → Apart label' lead →
        (gapped label' (readRun isDecimal)).Passes u (counted label n ++ '\n' :: rest) := by
  obtain ⟨width, t, ht⟩ := exists_countRows_eq (fun i => margin (i + 4)) (r.counts.take k)
    (r.counts.drop (k + 1)) lead label n
  rw [← hcounts] at ht
  refine ⟨front ++ (top margin r ++ (middle margin time r ++
    (countRows (fun i => margin (i + 4)) (r.counts.take k) ++ (Text.copies width ' ' ++ lead)))),
    t ++ after, by simp [print, ht], fun label' a hlabel hhead ha hbeside hlead => ?_⟩
  have halpha := isAlpha_of_counts r
  have hline : LeadsOut isDecimal
      (Text.copies width ' ' ++ lead ++ (counted label n ++ '\n' :: (t ++ after))) := by
    have hmem : lead ++ label ∈ r.counts.map Prod.fst := by
      rw [hcounts, List.map_append]
      exact List.mem_append_right _ List.mem_cons_self
    have := leadsOut_of_isAlpha (halpha _ hmem) width (' ' :: Text.ofInt n ++ '\n' :: (t ++ after))
    simpa [counted] using this
  have hspace : a ≠ ' ' := by
    rintro rfl
    cases ha
  refine (passes_front hfront hlabel).append <| Recogniser.Passes.append ?_ <|
    Recogniser.Passes.append ?_ <| Recogniser.Passes.append ?_ <|
      (passes_copies hhead hspace).append (passes_of_apart hlead)
  · refine passes_top h hlabel ⟨by decide, by decide⟩ ?_
    rw [middle, List.append_assoc, List.append_assoc]
    exact leadsOut_row rfl (by decide) (by decide) _ _
  · refine passes_middle h hhead ha hlabel.line ?_
    rw [List.append_assoc]
    exact leadsOut_countRows (fun l hl => (hbeside l hl).1) hline _
  · exact passes_countRows (fun c hc => h.counts c (List.mem_of_mem_take hc)) hhead hspace
      hlabel.line hbeside hline _

theorem counter_print (lead : Text) (h : r.Printable time) (hfront : Silent front)
    (hcounts : r.counts = r.counts.take k ++ (lead ++ label, n) :: r.counts.drop (k + 1))
    (hlabel : Foreign label) {a : Char} (hhead : label.head? = some a) (ha : a.isUpper = true)
    (hbeside : ∀ l ∈ (r.counts.take k).map Prod.fst, Beside label l) (hlead : Apart label lead) :
    counter (labelled label isDecimal) (front ++ (print margin time r ++ after)) = .ok n := by
  have hn : IsCount n := by
    refine h.counts (lead ++ label, n) ?_
    rw [hcounts]
    exact List.mem_append_right _ List.mem_cons_self
  obtain ⟨u, rest, hu, hpasses⟩ := exists_print_eq lead label h hfront margin after hcounts
  rw [hu]
  exact counter_eq hn <| (hpasses label a hlabel hhead ha hbeside hlead).first?_append
    (by simp [counted]) (labelled_counted hn label rest)

theorem counter_serverCalls (h : r.Printable time) (hfront : Silent front) :
    counter (labelled "Server calls:" isDecimal) (front ++ (print margin time r ++ after)) =
      .ok r.serverCalls := by
  have hlabel : Foreign "Server calls:" :=
    ⟨⟨'S', rfl, by decide⟩, by decide, ⟨"calls:", by decide, by decide⟩, by decide⟩
  exact counter_print (k := 0) "system-out: " h hfront rfl hlabel rfl (by decide)
    nofun (by decide)

theorem counter_failedServerCalls (h : r.Printable time) (hfront : Silent front) :
    counter (labelled "Failed server calls:" isDecimal) (front ++ (print margin time r ++ after)) =
      .ok r.failedServerCalls := by
  have hlabel : Foreign "Failed server calls:" :=
    ⟨⟨'F', rfl, by decide⟩, by decide, ⟨"calls:", by decide, by decide⟩, by decide⟩
  have hbeside : ∀ l ∈ ["system-out: Server calls:".toList], Beside "Failed server calls:" l := by
    decide
  exact counter_print (k := 1) [] h hfront rfl hlabel rfl (by decide) hbeside (by decide)

theorem counter_asserts (h : r.Printable time) (hfront : Silent front) :
    counter (labelled "Asserts:" isDecimal) (front ++ (print margin time r ++ after)) =
      .ok r.asserts := by
  have hlabel : Foreign "Asserts:" :=
    ⟨⟨'A', rfl, by decide⟩, by decide, ⟨"sserts:", by decide, by decide⟩, by decide⟩
  have hbeside : ∀ l ∈ ["system-out: Server calls:".toList, "Failed server calls:".toList],
      Beside "Asserts:" l := by
    decide
  exact counter_print (k := 2) [] h hfront rfl hlabel rfl (by decide) hbeside (by decide)

theorem counter_failedAsserts (h : r.Printable time) (hfront : Silent front) :
    counter (labelled "Failed asserts:" isDecimal) (front ++ (print margin time r ++ after)) =
      .ok r.failedAsserts := by
  have hlabel : Foreign "Failed asserts:" :=
    ⟨⟨'F', rfl, by decide⟩, by decide, ⟨"sserts:", by decide, by decide⟩, by decide⟩
  have hbeside : ∀ l ∈ ["system-out: Server calls:".toList, "Failed server calls:".toList,
      "Asserts:".toList], Beside "Failed asserts:" l := by
    decide
  exact counter_print (k := 3) [] h hfront rfl hlabel rfl (by decide) hbeside (by decide)

theorem counter_exceptions (h : r.Printable time) (hfront : Silent front) :
    counter exceptionCount (front ++ (print margin time r ++ after)) = .ok r.exceptions := by
  have hmark : "Exceptions".toList ∈ marks := by decide
  have hlabel : Foreign "Exceptions:" :=
    ⟨⟨'E', rfl, by decide⟩, by decide, ⟨_, hmark, by decide⟩, by decide⟩
  have hbare : Foreign "Exceptions" :=
    ⟨⟨'E', rfl, by decide⟩, by decide, ⟨_, hmark, by decide⟩, by decide⟩
  have hbeside : ∀ label ∈ ["Exceptions:".toList, "Exceptions".toList],
      ∀ l ∈ ["system-out: Server calls:".toList, "Failed server calls:".toList,
        "Asserts:".toList, "Failed asserts:".toList], Beside label l := by
    decide
  have hn : IsCount r.exceptions := h.counts ("Exceptions:", _) (by simp [counts])
  obtain ⟨u, rest, hu, hpasses⟩ := exists_print_eq (k := 4) [] "Exceptions:" h hfront margin
    after rfl
  rw [hu]
  refine counter_eq hn <| Recogniser.Passes.first?_append (n := 1) (Recogniser.Passes.orElse
    (hpasses _ 'E' hlabel rfl (by decide) (hbeside _ (by simp)) (by decide))
    (hpasses _ 'E' hbare rfl (by decide) (hbeside _ (by simp)) (by decide)))
    (by simp [counted]) fun before => ?_
  rw [exceptionCount, labelled_counted hn]
  rfl

end Counts

/-! ## The other figures -/

section Figures

variable {time front after : Text} {r : Report} {margin : Nat → Nat}

theorem secondsOf_print (h : r.Printable time) (hfront : Silent front) :
    secondsOf (front ++ (print margin time r ++ after)) = r.seconds := by
  obtain ⟨x, hx, hseconds⟩ := h.seconds
  have hlabel : Foreign "time:" :=
    ⟨⟨'t', rfl, by decide⟩, by decide, ⟨"time:", by decide, by decide⟩, by decide⟩
  have htime (c : Char) (hc : c ∈ time) : (isDecimal c || c == '.') = true ∧ isBlank c = false := by
    rcases hx.forall_mem.2 c hc with hdigit | rfl
    · exact ⟨by simp [hdigit], isBlank_eq_false_of_isDecimal hdigit⟩
    · exact ⟨rfl, by decide⟩
  have hfirst : (labelled "time:" fun c => isDecimal c || c == '.').first?
      (front ++ (print margin time r ++ after)) = some time := by
    have htext : front ++ (print margin time r ++ after) =
        (front ++ (top margin r ++ Text.copies (margin 2) ' ')) ++ ("time:".toList ++
          ' ' :: (time ++ '\n' :: (row (margin 3) ("file:".toList ++ ' ' :: r.filePath) ++
            (countRows (fun i => margin (i + 4)) r.counts ++ after)))) := by
      simp [print, middle, row]
    rw [htext]
    refine Recogniser.Passes.first?_append (n := 1) ((passes_front hfront hlabel).append <|
      Recogniser.Passes.append ?_ (passes_copies rfl (by decide))) (by simp)
      (labelled_append hx.forall_mem.1 htime (by decide) _)
    refine passes_top h hlabel ⟨by decide, by decide⟩ ⟨margin 2, 't', _, rfl, by decide, by decide⟩
  have hvalue : Numeral.float? time = some x := by
    obtain ⟨whole, tenths, hne, hdigits, htime, rfl⟩ := hx
    have hwhole : ∀ c ∈ whole, isDecimal c = true := fun c hc =>
      hdigits c (List.mem_append_left _ hc)
    have htenths : ∀ c ∈ tenths, isDecimal c = true := fun c hc =>
      hdigits c (List.mem_append_right _ hc)
    rcases htime with ⟨rfl, rfl⟩ | ⟨htne, rfl⟩
    · simpa using Numeral.float?_of_isDecimal hne hwhole htenths (Or.inl ⟨rfl, rfl⟩)
    · exact Numeral.float?_of_isDecimal hne hwhole htenths (Or.inr ⟨htne, rfl⟩)
  rw [secondsOf, hfirst, hseconds]
  simp [hvalue]

theorem beforeExtension?_append_extension {name : Text} (hne : name ≠ []) :
    beforeExtension? (name ++ ".mkd".toList) = some name :=
  beforeExtension?_eq_some_iff.2 ⟨hne, [], rfl, by decide⟩

/-- The line of a status has no path. -/
theorem readPath_status (s : Status) (margin : Nat) (rest : Text) :
    ∀ g ∈ Trace.gap? ('\n' :: (row margin s.name ++ rest)), readPath g = none := by
  intro g hg
  have hhead : ∀ c ∈ (s.name ++ '\n' :: rest).head?, isBlank c = false := by
    cases s <;> simpa using by decide
  rw [row, List.append_assoc, List.append_assoc, List.singleton_append, Option.mem_def,
    gap?_newline_copies margin hhead] at hg
  obtain rfl := Option.some.inj hg
  have hnone : pathAfter? ('\n' :: Text.copies margin ' ') s.name = none :=
    pathAfter?_eq_none (List.forall_mem_cons.2 ⟨rfl, Text.isBlank_of_mem_copies⟩)
      (by cases s <;> rfl) (by cases s <;> rfl)
  rw [readPath, pathAfter?_append_cons, hnone]
  rfl

/-- A path is read up to the end of its line. -/
theorem path_append (h : r.Printable time) (before : Option Char) (rest : Text) :
    path before ("file:".toList ++ ' ' :: (r.filePath ++ '\n' :: rest)) = some (r.filePath, 1) := by
  obtain ⟨name, hne, hpath, hname⟩ := h.filePath
  have hgap : Trace.gap? (' ' :: (r.filePath ++ '\n' :: rest)) =
      some ([' '], r.filePath ++ '\n' :: rest) := by
    refine Trace.gap?_space ?_
    obtain ⟨c, cs, rfl⟩ := List.exists_cons_of_ne_nil hne
    rw [hpath]
    simpa using hname c List.mem_cons_self
  have hline : r.filePath.takeWhile (· ≠ '\n') = r.filePath := by
    refine List.takeWhile_eq_self_iff.2 fun c hc => ?_
    have hc := h.filePath_forall c hc
    rw [decide_eq_true_iff]
    rintro rfl
    cases hc
  have hread : pathAfter? [' '] r.filePath = some r.filePath := by
    rw [pathAfter?, pathAfter?, List.nil_append, hline, hpath,
      beforeExtension?_append_extension hne]
    rfl
  rw [path_eq, gapped, Text.after?_append, Option.bind_some, hgap, Option.bind_some, readPath,
    pathAfter?_append_cons, hread]
  rfl

theorem first?_path (h : r.Printable time) (hfront : Silent front) :
    path.first? (front ++ (print margin time r ++ after)) = some r.filePath := by
  have hlabel : Foreign "file:" :=
    ⟨⟨'f', rfl, by decide⟩, by decide, ⟨"file:", by decide, by decide⟩, by decide⟩
  obtain ⟨type, htype, heq⟩ := h.testType
  obtain ⟨x, hx, -⟩ := h.seconds
  have htext : front ++ (print margin time r ++ after) =
      (front ++ (row (margin 0) (type ++ [' '] ++ r.testName) ++ (row (margin 1) r.status.name ++
        (row (margin 2) ("time:".toList ++ ' ' :: time) ++ Text.copies (margin 3) ' ')))) ++
      ("file:".toList ++ ' ' :: (r.filePath ++ '\n' ::
        (countRows (fun i => margin (i + 4)) r.counts ++ after))) := by
    simp [print, top, middle, row, heq]
  have hstatus : 'f' ∉ r.status.name := by cases r.status <;> decide
  have htime : 'f' ∉ "time:".toList ++ ' ' :: time := by
    intro hmem
    rcases List.mem_append.1 hmem with hmem | hmem
    · exact absurd hmem (by decide)
    · rcases List.mem_cons.1 hmem with hmem | hmem
      · exact absurd hmem (by decide)
      · rcases hx.forall_mem.2 'f' hmem with hdigit | hpoint
        · exact absurd hdigit (by decide)
        · exact absurd hpoint (by decide)
  rw [htext]
  refine Recogniser.Passes.first?_append (n := 1) ?_ (by simp) fun before => path_append h before _
  rw [path_eq]
  refine (passes_front hfront hlabel).append <| Recogniser.Passes.append ?_ <|
    (passes_row_of_notMem rfl (by decide) (by decide) hstatus).append <|
      (passes_row_of_notMem rfl (by decide) (by decide) htime).append (passes_copies rfl (by decide))
  refine passes_row _ _ rfl (by decide) (by decide) (hlabel.types type htype) h.testName.2 ?_
  rw [List.append_assoc]
  exact readPath_status _ _ _

/-- The first line with a type of tests behind some output is the heading that is found. -/
theorem search_heading {type name rest : Text} {words : List Text} (htype : type ∈ testTypes)
    (hwords : Text.words rest = type :: name :: words)
    (hfront : ∀ type ∈ testTypes, ¬ type <:+: front)
    (hend : front = [] ∨ front.getLast? = some '\n') {before : Option Char}
    (hbefore : front = [] → lineStarts before = true) :
    heading.search before (front ++ rest) = some (type, name) := by
  have hhead (ws : List Text) : headed? testTypes (type :: name :: ws) = some ((type, name), 1) := by
    rw [headed?, if_pos htype]
  induction front generalizing before with
  | nil =>
    cases rest with
    | nil => simp [Text.words, Text.words.go] at hwords
    | cons c cs =>
      rw [List.nil_append, Recogniser.search, heading_eq, if_pos (hbefore rfl), hwords, hhead]
  | cons c cs ih =>
    have hlast : (c :: cs).getLast? = some '\n' := hend.resolve_left (List.cons_ne_nil c cs)
    obtain ⟨line, hline⟩ := List.getLast?_eq_some_iff.1 hlast
    have hall : Text.words (c :: cs ++ rest) = Text.words line ++ type :: name :: words := by
      rw [hline, List.append_assoc, List.singleton_append, Text.words_append_cons (by decide),
        hwords]
    rw [List.cons_append] at hall ⊢
    have hnext : heading.search (some c) (cs ++ rest) = some (type, name) := by
      refine ih (fun t ht hpart => hfront t ht (List.infix_cons hpart)) ?_ ?_
      · cases cs with
        | nil => exact Or.inl rfl
        | cons d ds => exact Or.inr (by rwa [List.getLast?_cons_cons] at hlast)
      · rintro rfl
        obtain rfl : c = '\n' := by simpa using hlast
        rfl
    rw [Recogniser.search, heading_eq, hall]
    split
    · next find hfound =>
      cases hws : Text.words line with
      | nil =>
        rw [hws, List.nil_append, hhead] at hfound
        split at hfound
        · cases hfound; rfl
        · cases hfound
      | cons word ws =>
        -- a word of the output is no type
        have hword : word ∉ testTypes := by
          intro hmem
          obtain ⟨blanks, more, rfl, -⟩ := Text.isFirstWord_of_head?_words (t := line)
            (by rw [hws]; rfl)
          refine hfront word hmem ?_
          rw [hline]
          exact ⟨blanks, more ++ ['\n'], by simp⟩
        rw [hws] at hfound
        cases ws <;> simp [headed?, hword] at hfound
    · exact hnext

theorem words_print (h : r.Printable time) (margin : Nat → Nat) (after : Text) : ∃ type ∈ testTypes, ∃ words,
    r.testType = some type ∧
      Text.words (print margin time r ++ after) = type :: r.testName :: words := by
  obtain ⟨type, htype, heq⟩ := h.testType
  obtain ⟨hne, hname⟩ := h.testName
  have hword {t : Text} (hne : t ≠ []) (ht : ∀ c ∈ t, isBlank c = false) : Text.words t = [t] := by
    have h := Text.words_append_of_head? (s := []) hne ht nofun
    rwa [List.append_nil] at h
  have htypes : ∀ type ∈ testTypes, type ≠ [] ∧ type.all (!isBlank ·) = true := by decide
  obtain ⟨htne, hblank⟩ := htypes type htype
  have hblank : ∀ c ∈ type, isBlank c = false := fun c hc => by
    simpa using List.all_eq_true.1 hblank c hc
  have hmargin : Text.words (Text.copies (margin 0) ' ' ++ type) = [type] := by
    have hhead : ∀ c ∈ type.head?, isBlank c = false := fun c hc =>
      hblank c (List.mem_of_mem_head? hc)
    rw [← Text.words_trimLeft, Text.trimLeft,
      Text.dropWhile_append_of_head? Text.isBlank_of_mem_copies hhead, hword htne hblank]
  have htext : ∃ rest, print margin time r ++ after =
      (Text.copies (margin 0) ' ' ++ type) ++ ' ' :: (r.testName ++ '\n' :: rest) :=
    ⟨_, by simp [print, top, row, heq]; rfl⟩
  obtain ⟨rest, hrest⟩ := htext
  refine ⟨type, htype, Text.words rest, heq, ?_⟩
  rw [hrest, Text.words_append_cons rfl, Text.words_append_cons rfl, hmargin, hword hne hname]
  rfl

theorem first?_heading (h : r.Printable time) (hfront : Silent front) (margin : Nat → Nat)
    (after : Text) :
    ∃ type, r.testType = some type ∧
      heading.first? (front ++ (print margin time r ++ after)) = some (type, r.testName) := by
  obtain ⟨type, htype, words, heq, hwords⟩ := words_print h margin after
  refine ⟨type, heq, search_heading htype hwords (fun t ht => hfront.marks t ?_) hfront.ends
    fun _ => rfl⟩
  exact List.mem_append_right _ ht

/-- The name of a status is that of a line that holds nothing else. -/
theorem ofLine?_copies_append {s : Status} (hs : s ≠ .error) (margin : Nat) :
    Status.ofLine? (Text.copies margin ' ' ++ s.name) = some s := by
  have hflush : Text.Flush s.name := by cases s <;> decide
  rw [Status.ofLine?, hflush.trim_copies_append]
  cases s with
  | passed => rfl
  | failed => rfl
  | error => exact absurd rfl hs

theorem ofLine?_eq_none {t : Text} (ht : Text.Flush t) {c : Char} (hc : t.head? = some c)
    (hP : c ≠ 'P') (hF : c ≠ 'F') (margin : Nat) :
    Status.ofLine? (Text.copies margin ' ' ++ t) = none := by
  rw [Status.ofLine?, ht.trim_copies_append, List.find?_eq_none]
  intro s hs hname
  obtain rfl : s.name = t := by simpa using hname
  rcases List.mem_cons.1 hs with rfl | hs
  · exact hP (Option.some.inj hc).symm
  · obtain rfl := List.mem_singleton.1 hs
    exact hF (Option.some.inj hc).symm

/-- No line of the output in front of a report is that of a status. -/
theorem Silent.findSome?_ofLine? (hfront : Silent front) (rest : Text) :
    (Text.splitAt '\n' (front ++ rest)).findSome? Status.ofLine? =
      (Text.splitAt '\n' rest).findSome? Status.ofLine? := by
  rcases hfront.ends with rfl | hend
  · rfl
  · obtain ⟨lines, rfl⟩ := List.getLast?_eq_some_iff.1 hend
    have hnone := hfront.status
    rw [Text.splitAt_append_cons, List.findSome?_append, Option.or_eq_none_iff] at hnone
    rw [List.append_assoc, List.singleton_append, Text.splitAt_append_cons, List.findSome?_append,
      hnone.1, Option.none_or]

/-- The first line of a printed report that is that of a status is its own. -/
theorem findSome?_ofLine?_print (h : r.Printable time) :
    (Text.splitAt '\n' (print margin time r ++ after)).findSome? Status.ofLine? =
      some r.status := by
  obtain ⟨type, htype, heq⟩ := h.testType
  obtain ⟨hne, hname⟩ := h.testName
  have hname' : Text.Flush r.testName :=
    ⟨hne, fun c hc => hname c (List.mem_of_mem_head? hc),
      fun c hc => hname c (List.mem_of_mem_getLast? hc),
      fun c hc => isBreak_eq_false_of_isBlank_eq_false (hname c hc)⟩
  have htypes : ∀ type ∈ testTypes, type.head? = some 'T' ∧
      (type ++ [' ']).all (!isBreak ·) = true := by
    decide
  obtain ⟨hhead, hall⟩ := htypes type htype
  have hbreak : ∀ c ∈ type ++ [' '], isBreak c = false := fun c hc => by
    simpa using List.all_eq_true.1 hall c hc
  have hT (t : Text) : (type ++ t).head? = some 'T' := by rw [List.head?_append, hhead]; rfl
  have hheading : Text.Flush (type ++ [' '] ++ r.testName) := by
    refine Text.Flush.append (fun c hc => ?_) hbreak hname'
    rw [List.append_assoc, hT] at hc
    obtain rfl := Option.some.inj hc
    rfl
  have hnone : Status.ofLine? (Text.copies (margin 0) ' ' ++ (type ++ [' '] ++ r.testName)) = none :=
    ofLine?_eq_none hheading (by rw [List.append_assoc, hT]) (by decide) (by decide) _
  have hline {t : Text} (ht : Text.Flush t) (width : Nat) : '\n' ∉ Text.copies width ' ' ++ t := by
    intro hmem
    rcases List.mem_append.1 hmem with hmem | hmem
    · cases List.eq_of_mem_replicate hmem
    · cases ht.isBreak_eq_false _ hmem
  have hstatus : Text.Flush r.status.name := by cases r.status <;> decide
  have hprint : ∃ rest, print margin time r ++ after =
      Text.copies (margin 0) ' ' ++ (type ++ [' '] ++ r.testName) ++
        '\n' :: (Text.copies (margin 1) ' ' ++ r.status.name ++ '\n' :: rest) :=
    ⟨_, by simp [print, top, row, heq]; rfl⟩
  obtain ⟨rest, hrest⟩ := hprint
  rw [hrest, Text.splitAt_append_sep (hline hheading _), Text.splitAt_append_sep (hline hstatus _),
    List.findSome?_cons, hnone, List.findSome?_cons, ofLine?_copies_append h.status]

theorem statusOf_print (h : r.Printable time) (hfront : Silent front) :
    statusOf (front ++ (print margin time r ++ after)) = r.status := by
  rw [statusOf, first?_statusLine, hfront.findSome?_ofLine?, findSome?_ofLine?_print h]

end Figures

/-! ## Headings -/

/-- What the characters of headings are. -/
theorem IsHeading.forall_mem {heading : Text} (h : IsHeading heading) :
    ∀ c ∈ heading, isRule c = true ∨ c ∈ "TestReport".toList := by
  obtain ⟨margin, rule, rfl, hrule⟩ := h
  have hwords : ∀ c ∈ "Test Report".toList, isRule c = true ∨ c ∈ "TestReport".toList :=
    Text.forall_mem_of_all (by decide)
  intro c hc
  rcases List.mem_append.1 hc with hc | hc
  · rw [List.eq_of_mem_replicate hc]
    exact Or.inl rfl
  · rcases List.mem_append.1 hc with hc | hc
    · exact hwords c hc
    · rcases List.mem_append.1 hc with hc | hc
      · exact Or.inl (hrule c hc)
      · rw [List.mem_singleton.1 hc]
        exact Or.inl rfl

theorem Status.mem_of_ofLine? {l : Text} {s : Status} (h : Status.ofLine? l = some s) : 'd' ∈ l := by
  have hmem := List.mem_of_find?_eq_some h
  have hname : s.name = Text.trim l := by simpa using List.find?_some h
  have hd : 'd' ∈ s.name := by
    rcases List.mem_cons.1 hmem with rfl | hmem
    · decide
    · rw [List.mem_singleton.1 hmem]
      decide
  rw [hname] at hd
  have hleft : 'd' ∈ Text.trimLeft l :=
    List.mem_reverse.1 ((List.dropWhile_sublist isBlank).subset (List.mem_reverse.1 hd))
  exact (List.dropWhile_sublist isBlank).subset hleft

/-- A heading tells nothing. -/
theorem IsHeading.silent {heading : Text} (h : IsHeading heading) : Silent heading := by
  have hmarks : ∀ mark ∈ marks,
      mark.any (fun c => decide (¬ (isRule c = true ∨ c ∈ "TestReport".toList))) = true := by
    decide
  refine ⟨Or.inr ?_, fun mark hmark hpart => ?_, List.findSome?_eq_none_iff.2 fun l hl => ?_⟩
  · obtain ⟨margin, rule, rfl, -⟩ := h
    exact List.getLast?_eq_some_iff.2
      ⟨Text.copies margin ' ' ++ ("Test Report".toList ++ rule), by simp⟩
  · obtain ⟨c, hc, hother⟩ := List.any_eq_true.1 (hmarks mark hmark)
    exact of_decide_eq_true hother (h.forall_mem c (hpart.subset hc))
  · refine Option.eq_none_iff_forall_ne_some.2 fun s hs => ?_
    have hd := h.forall_mem 'd' (Text.mem_of_mem_splitAt hl 'd' (Status.mem_of_ofLine? hs))
    exact absurd hd (by decide)

/-- Outputs that tell nothing tell nothing together. -/
theorem Silent.append {front heading : Text} (hfront : Silent front) (hheading : Silent heading) :
    Silent (front ++ heading) := by
  have hbreaks : ∀ mark ∈ Report.marks, '\n' ∉ mark := by decide
  rcases hfront.ends with rfl | hend
  · exact hheading
  obtain ⟨lines, rfl⟩ := List.getLast?_eq_some_iff.1 hend
  have htext : lines ++ ['\n'] ++ heading = lines ++ '\n' :: heading := by simp
  refine ⟨Or.inr ?_, fun mark hmark hpart => ?_,
    (hfront.findSome?_ofLine? heading).trans hheading.status⟩
  · rcases hheading.ends with rfl | hlast
    · simp
    · rw [List.getLast?_append, hlast, Option.some_or]
  · rw [htext, Text.infix_append_cons_iff (hbreaks mark hmark)] at hpart
    rcases hpart with hpart | hpart
    · exact hfront.marks mark hmark (hpart.trans (List.prefix_append _ _).isInfix)
    · exact hheading.marks mark hmark hpart

/-! ## The round trip -/

/-- **A printed report is read back.** Whatever the name, the path and the figures of a report are,
whatever stands behind it, and whatever stands in front of it but tells nothing of its own, reading
the whole gives the report. -/
theorem read_print {time front heading : Text} {r : Report} (h : r.Printable time)
    (hfront : Silent front) (hheading : IsHeading heading) (margin : Nat → Nat) (after : Text) :
    read (front ++ heading ++ print margin time r ++ after) = .ok r := by
  have hsilent : Silent (front ++ heading) := hfront.append hheading.silent
  have hpath : Text.trim r.filePath = r.filePath := by
    rw [Text.trim, Text.trimLeft_eq_self fun c hc => h.filePath_forall c (List.mem_of_mem_head? hc),
      Text.trimRight_eq_self fun c hc => h.filePath_forall c (List.mem_of_mem_getLast? hc)]
  obtain ⟨type, htype, hfirst⟩ := first?_heading h hsilent margin after
  rw [List.append_assoc, read_eq_ok_iff]
  refine ⟨?_, (statusOf_print h hsilent).symm, (secondsOf_print h hsilent).symm, ?_, ?_,
    counter_serverCalls h hsilent, counter_failedServerCalls h hsilent, counter_asserts h hsilent,
    counter_failedAsserts h hsilent, counter_exceptions h hsilent⟩
  · rw [nameOf, hfirst]
  · rw [first?_path h hsilent, Option.getD_some, hpath]
  · rw [hfirst, htype]
    rfl

/-- A report whose name looks like a label. -/
def labelReport : Report where
  testName := "Exceptions:"
  status := .failed
  seconds := .float (Binary64.ofDecimal false 312 (-2))
  filePath := "C:\\tests\\time:.mkd"
  testType := some "TestCase"
  serverCalls := 12
  failedServerCalls := 1
  exceptions := 3

theorem printable_labelReport : Printable "3.12" labelReport where
  testType := ⟨"TestCase", by decide, rfl⟩
  testName := ⟨by decide, Text.forall_mem_of_all (by decide)⟩
  status := by decide
  seconds := ⟨_, ⟨"3", "12", by decide, Text.forall_mem_of_all (by decide),
    Or.inr ⟨by decide, by decide⟩, congrArg₂ (Binary64.ofDecimal false) (by decide) (by decide)⟩, rfl⟩
  filePath := ⟨"C:\\tests\\time:", by decide, by decide, Text.forall_mem_of_all (by decide)⟩
  counts := by
    have hcount (m : Nat) (hm : (Text.ofNat m).length ≤ Numeral.maxDigits) : IsCount m :=
      ⟨m, rfl, hm⟩
    simp only [counts, List.forall_mem_cons, List.not_mem_nil, false_implies, implies_true, and_true]
    exact ⟨hcount 12 (by decide), hcount 1 (by decide), hcount 0 (by decide), hcount 0 (by decide),
      hcount 3 (by decide)⟩

/-- It is read back although other figures follow it. -/
theorem read_print_labelReport :
    read ("2026-01-20 14:22:13 End\n\n".toList ++ "Test Report ====\n  ----\n".toList ++
      print (fun i => if i < 5 then 2 else 14) "3.12" labelReport ++
        "Test Summary\n  time: 4.5\n  Asserts: 7\n  Passed\n".toList) = .ok labelReport := by
  have hsilent : Silent "2026-01-20 14:22:13 End\n\n" :=
    ⟨Or.inr (by decide), by decide, by decide⟩
  have hheading : IsHeading "Test Report ====\n  ----\n" :=
    ⟨0, " ====\n  ----", by decide, Text.forall_mem_of_all (by decide)⟩
  exact read_print printable_labelReport hsilent hheading _ _

/-- A report whose path has nothing before the extension. -/
def bareReport : Report where
  testName := "A"
  status := .passed
  seconds := .float (Binary64.ofDecimal false 15 (-1))
  filePath := ".mkd"
  testType := some "TestCase"
  serverCalls := 1

/-- An extension alone is no path. -/
theorem read_bareReport : read ("Test Report\n".toList ++ print (fun _ => 2) "1.5" bareReport) ≠
    .ok bareReport := by
  intro h
  have hpath : (read ("Test Report\n".toList ++ print (fun _ => 2) "1.5" bareReport)).toOption.any
      (fun r => r.filePath = []) = true := by
    decide +kernel
  rw [h] at hpath
  exact absurd hpath (by decide)

end Report

end ScriptAudit
