import ScriptAudit.Proofs.Check.Phases
import ScriptAudit.Proofs.Document.Calls
import ScriptAudit.Proofs.Document.Heading
import ScriptAudit.Proofs.Document.Keyword
import ScriptAudit.Proofs.Text.WholeWord
import ScriptAudit.Yaml.Standard

/-!
# What act and assert sections hold

An act section should hold a call and an assert section an assertion, below its heading. What the
check takes for the text below the heading is everything behind the first line of the section. For a
heading of one line this is right. The other lines of a longer heading count as well, so that a
keyword in one of them hides that the section is idle.

* `idleRule?` — what a section of a phase should hold, and the code of the issue if it does not.
* `isReported_iff` — the check told by whole words in lines.
* `idle_sections` — when the check reports what stands below the heading.
-/

namespace ScriptAudit.Check

open Text (HasWord)

/-! ## Keywords in lines -/

/-- Whether one of some keywords stands in a line as a whole word. -/
def Names (keywords : List Keyword) (l : Text) : Prop := ∃ k ∈ keywords, HasWord k.name l

theorem name_ne_nil (k : Keyword) : k.name ≠ [] := by
  cases k <;> decide

theorem mentions_iff {keywords : List Keyword} {t : Text} :
    mentions keywords t = true ↔ Names keywords t := by
  simp [mentions, Names, Text.found_wholeWord_iff (name_ne_nil _)]

/-- A keyword in a text of several lines stands in one of them. -/
theorem names_joinWith_iff {keywords : List Keyword} (ls : List Text) :
    Names keywords (Text.joinWith ['\n'] ls) ↔ ∃ l ∈ ls, Names keywords l := by
  simp only [Names, Text.hasWord_joinWith_iff (Keyword.isAlpha_name _) (name_ne_nil _)]
  exact ⟨fun ⟨k, hk, l, hl, h⟩ => ⟨l, hl, k, hk, h⟩, fun ⟨l, hl, k, hk, h⟩ => ⟨k, hk, l, hl, h⟩⟩

theorem cutLine_joinWith {ls : List Text} (h : ∀ l ∈ ls, '\n' ∉ l) :
    (Text.cutLine (Text.joinWith ['\n'] ls)).2 = Text.joinWith ['\n'] ls.tail := by
  cases ls with
  | nil => rfl
  | cons l ls =>
    have hl : '\n' ∉ l := h l List.mem_cons_self
    cases ls with
    | nil =>
      have hall : ∀ c ∈ l, decide (c ≠ '\n') = true := Text.forall_ne_of_notMem hl
      show (l.dropWhile (· ≠ '\n')).drop 1 = []
      rw [List.dropWhile_eq_nil_iff.2 hall, List.drop_nil]
    | cons l' ls =>
      rw [Text.joinWith_cons _ (List.cons_ne_nil l' ls), Text.cutLine, List.append_assoc,
        List.singleton_append, Text.dropWhile_ne_append_cons hl]
      rfl

/-! ## Idle sections -/

/-- What a section of a phase should hold, and the code of the issue if it does not. -/
def idleRule? : Phase → Option (Text × List Keyword)
  | .act => some ("AAA005", .call :: Keyword.serverCalls)
  | .assert => some ("AAA006", [.assert, .assertJson])
  | _ => none

/-- Whether an issue with the given code is on the first line of a section. -/
def IsReported (code : Text) (s : Section) (is : List Issue) : Prop :=
  ∃ i ∈ withCode code is, i.line = some s.first

instance (code : Text) (s : Section) (is : List Issue) : Decidable (IsReported code s is) :=
  inferInstanceAs (Decidable (∃ i ∈ withCode code is, _))

section

variable {text : Text} {d : Document} {s : Section} {code : Text} {keywords : List Keyword}

/-- The check goes by the sections, and tells them by their first lines. -/
theorem isReported_iff_exists (htype : d.fileType = some .testCase)
    (hrule : idleRule? s.phase = some (code, keywords)) :
    IsReported code s (phases d) ↔ ∃ s' ∈ d.sections, s'.phase = s.phase ∧
      mentions keywords (sectionBody s') = false ∧ s'.first = s.first := by
  cases hphase : s.phase with
  | arrange => rw [hphase] at hrule; cases hrule
  | other => rw [hphase] at hrule; cases hrule
  | act =>
    rw [hphase] at hrule
    obtain ⟨rfl, rfl⟩ := Prod.mk.inj (Option.some.inj hrule)
    have hacts : withCode "AAA005" (phases d) = idleActs d.sections := by
      rw [withCode_phases htype (by decide), if_neg (by decide), if_pos rfl, if_neg (by decide),
        List.nil_append, List.append_nil]
    rw [IsReported, hacts]
    simp [idleActs, and_assoc]
  | assert =>
    rw [hphase] at hrule
    obtain ⟨rfl, rfl⟩ := Prod.mk.inj (Option.some.inj hrule)
    have hasserts : withCode "AAA006" (phases d) = idleAsserts d.sections := by
      rw [withCode_phases htype (by decide), if_neg (by decide), if_neg (by decide), if_pos rfl,
        List.nil_append, List.nil_append]
    rw [IsReported, hasserts]
    simp [idleAsserts, and_assoc]

theorem heading_ne_nil [Yaml.Loader] (hd : Document.read text = .ok d) (hs : s ∈ d.sections)
    (hrule : idleRule? s.phase = some (code, keywords)) : s.heading ≠ [] := by
  obtain ⟨m, start, -, rfl⟩ := Document.read_eq_ok hd
  obtain ⟨b, -, rfl⟩ := List.mem_map.1 hs
  intro (hnil : b.heading = [])
  simp [Section.ofBounds, hnil, idleRule?] at hrule

/-- What the check takes for the text below the heading is all behind the first line. -/
theorem sectionBody_eq [Yaml.Loader] (hd : Document.read text = .ok d) (hs : s ∈ d.sections)
    (hne : s.heading ≠ []) : sectionBody s = Text.joinWith ['\n']
      (slice (Text.lines (Document.withoutMark text)) s.range).tail := by
  obtain ⟨m, start, -, rfl⟩ := Document.read_eq_ok hd
  obtain ⟨b, -, rfl⟩ := List.mem_map.1 hs
  rw [sectionBody, if_neg (mt List.isEmpty_iff.1 hne)]
  exact cutLine_joinWith fun l hl => Text.lineFeed_notMem_of_mem_lines
    (List.mem_of_mem_take (List.mem_of_mem_drop hl))

/-- Sections that begin on the same line are the same. -/
theorem eq_of_first_eq [Yaml.Loader] (hd : Document.read text = .ok d) {s' : Section}
    (hs : s ∈ d.sections) (hs' : s' ∈ d.sections) (hfirst : s'.first = s.first) : s' = s := by
  obtain ⟨m, start, hhead, rfl⟩ := Document.read_eq_ok hd
  have htiles := Document.tiles_sections m (Document.head_le_length_lines hhead)
  have hin {s : Section} (hs : s ∈ _) : s.first ≤ s.last :=
    (htiles.le_of_mem _ (List.mem_map_of_mem hs)).2.1
  exact Section.eq_of_line_inside htiles hs' hs ⟨le_rfl, hin hs'⟩ ⟨hfirst.ge, hfirst ▸ hin hs⟩

/-- A section is reported exactly if no line behind its first one names a keyword. -/
theorem isReported_iff [Yaml.Loader] (hd : Document.read text = .ok d)
    (htype : d.fileType = some .testCase) (hs : s ∈ d.sections) (hrule : idleRule? s.phase = some (code, keywords)) :
    IsReported code s (phases d) ↔
      ∀ l ∈ (slice (Text.lines (Document.withoutMark text)) s.range).tail, ¬ Names keywords l := by
  have hidle : IsReported code s (phases d) ↔ mentions keywords (sectionBody s) = false := by
    rw [isReported_iff_exists htype hrule]
    constructor
    · rintro ⟨s', hs', -, hidle, hfirst⟩
      rwa [← eq_of_first_eq hd hs hs' hfirst]
    · exact fun hidle => ⟨s, hs, rfl, hidle, rfl⟩
  rw [hidle, sectionBody_eq hd hs (heading_ne_nil hd hs hrule), ← Bool.not_eq_true, mentions_iff,
    names_joinWith_iff]
  simp

/-- **What is counted as the text below a heading.** An act or an assert section of a test case
begins with the lines of its heading. It is reported as idle exactly if no keyword is named behind
its first line; this is right, that is, the same as for the lines below the heading alone, exactly if
the other lines of the heading name none or the lines below it name one. -/
theorem idle_sections [Yaml.Loader] (hd : Document.read text = .ok d)
    (htype : d.fileType = some .testCase) (hs : s ∈ d.sections) (hrule : idleRule? s.phase = some (code, keywords)) :
    (∃ head body, Section.IsHeadedBy s.heading
      (slice (Text.lines (Document.withoutMark text)) s.range) head body) ∧
    ∀ head body, Section.IsHeadedBy s.heading
        (slice (Text.lines (Document.withoutMark text)) s.range) head body →
      (IsReported code s (phases d) ↔ ∀ l ∈ head.tail ++ body, ¬ Names keywords l) ∧
      ((IsReported code s (phases d) ↔ ∀ l ∈ body, ¬ Names keywords l) ↔
        (∀ l ∈ head.tail, ¬ Names keywords l) ∨ ∃ l ∈ body, Names keywords l) := by
  refine ⟨Section.exists_isHeadedBy hd hs (heading_ne_nil hd hs hrule), ?_⟩
  intro head body hheaded
  have hreported := isReported_iff hd htype hs hrule
  rw [hheaded.1, List.tail_append_of_ne_nil hheaded.2.ne_nil] at hreported
  refine ⟨hreported, ?_⟩
  have hbody : (∃ l ∈ body, Names keywords l) ↔ ¬ ∀ l ∈ body, ¬ Names keywords l := by simp
  rw [hreported, List.forall_mem_append, hbody]
  tauto

end

/-- A test case that does nothing. A call is named in the heading of its act section only. -/
def idleCase : Text :=
  "---\ntype: Test Case\n---\nAct:\nCall the API\n===\nNothing yet.\n# Then\nWait.\n"

/-- The assert section is reported; its heading has one line. -/
theorem idle_sections_oneLine :
    ∃ d, Document.read idleCase = .ok d ∧ d.fileType = some .testCase ∧ ∃ s ∈ d.sections,
      idleRule? s.phase = some ("AAA006".toList, [.assert, .assertJson]) ∧
      IsReported "AAA006" s (phases d) ∧
      (∃ head body, Section.IsHeadedBy s.heading
        (slice (Text.lines (Document.withoutMark idleCase)) s.range) head body) ∧
      ∀ head body, Section.IsHeadedBy s.heading
          (slice (Text.lines (Document.withoutMark idleCase)) s.range) head body →
        (IsReported "AAA006" s (phases d) ↔
          ∀ l ∈ head.tail ++ body, ¬ Names [.assert, .assertJson] l) ∧
        ((IsReported "AAA006" s (phases d) ↔ ∀ l ∈ body, ¬ Names [.assert, .assertJson] l) ↔
          (∀ l ∈ head.tail, ¬ Names [.assert, .assertJson] l) ∨
            ∃ l ∈ body, Names [.assert, .assertJson] l) := by
  obtain ⟨d, hd, hcase⟩ := Redaction.exists_eq_ok (e := Document.read idleCase)
    (p := fun d => d.fileType = some .testCase ∧ ∃ s ∈ d.sections,
      idleRule? s.phase = some ("AAA006".toList, [.assert, .assertJson]) ∧
      IsReported "AAA006" s (phases d)) (by decide +kernel)
  obtain ⟨htype, s, hs, hrule, hreported⟩ := of_decide_eq_true hcase
  exact ⟨d, hd, htype, s, hs, hrule, hreported, idle_sections hd htype hs hrule⟩

/-- The act section is not reported, although no line below its heading names a call. -/
theorem idle_section_hidden :
    ∃ d, Document.read idleCase = .ok d ∧ d.fileType = some .testCase ∧ ∃ s ∈ d.sections,
      idleRule? s.phase = some ("AAA005".toList, .call :: Keyword.serverCalls) ∧
      Section.IsHeadedBy s.heading (slice (Text.lines (Document.withoutMark idleCase)) s.range)
        ["Act:".toList, "Call the API".toList, "===".toList] ["Nothing yet.".toList] ∧
      (∀ l ∈ ["Nothing yet.".toList], ¬ Names (.call :: Keyword.serverCalls) l) ∧
      ¬ IsReported "AAA005" s (phases d) := by
  obtain ⟨d, hd, hcase⟩ := Redaction.exists_eq_ok (e := Document.read idleCase)
    (p := fun d => d.fileType = some .testCase ∧ ∃ s ∈ d.sections,
      idleRule? s.phase = some ("AAA005".toList, .call :: Keyword.serverCalls) ∧
      s.heading = "Act: Call the API".toList ∧
      slice (Text.lines (Document.withoutMark idleCase)) s.range =
        ["Act:".toList, "Call the API".toList, "===".toList, "Nothing yet.".toList] ∧
      ¬ IsReported "AAA005" s (phases d)) (by decide +kernel)
  obtain ⟨htype, s, hs, hrule, hheading, hlines, hreported⟩ := of_decide_eq_true hcase
  refine ⟨d, hd, htype, s, hs, hrule, ⟨hlines, ?_⟩, ?_, hreported⟩
  · rw [hheading]
    exact .underlined ⟨by decide, by decide, by decide⟩
      (List.forall_mem_singleton.2 ⟨⟨by decide, by decide, by decide⟩, by decide⟩) (by decide)
      (by decide)
  · refine List.forall_mem_singleton.2 ?_
    rw [← mentions_iff]
    decide

end ScriptAudit.Check
