import Mathlib.Data.List.Chain
import ScriptAudit.Document.Basic
import ScriptAudit.Proofs.Document.Frontmatter
import ScriptAudit.Proofs.Document.Layout
import ScriptAudit.Yaml.Standard

/-!
# Sections partition the body

The sections of a document cut the lines of its body, in order, without a gap and without an
overlap.

* `isChain_headingsFrom` — the invariant of the scan: headings come in the order of their first
  lines, although a heading is known only when the line below its paragraph is read.
* `Tiles` — line ranges that follow one another from one line to another.
* `Section.tiles_bounds` — headings in order cut the body into such ranges.
* `sections_partition_body` — what this says of a document that was read.
-/

namespace ScriptAudit

/-! ## Headings in order -/

/-- The headings of lines numbered from `n` on come in order. They stand above any line `m` that the
paragraph under way stands above, and below the last line. -/
theorem isChain_headingsFrom (ls : List Text) {m n : Nat} (hmn : m < n)
    {paragraph : List (Nat × Text)} (hp : ∀ p ∈ paragraph, m < p.1 ∧ p.1 < n)
    (fence : Option Fence) :
    (m :: ((headingsFrom paragraph (Line.follow n fence ls)).map Heading.line ++
      [n + ls.length])).IsChain (· < ·) := by
  induction ls generalizing m n paragraph fence with
  | nil => simpa [headingsFrom] using hmn
  | cons l ls ih =>
    have hend : n + (l :: ls).length = n + 1 + ls.length := by
      rw [List.length_cons]
      omega
    have hnone (b : Nat) : ∀ p ∈ ([] : List (Nat × Text)), b < p.1 ∧ p.1 < n + 1 := by simp
    have hkeep : ∀ p ∈ paragraph, m < p.1 ∧ p.1 < n + 1 := fun p hpm =>
      ⟨(hp p hpm).1, Nat.lt_succ_of_lt (hp p hpm).2⟩
    have hmore : ∀ p ∈ (n, l) :: paragraph, m < p.1 ∧ p.1 < n + 1 := by
      intro p hpm
      rcases List.mem_cons.1 hpm with rfl | hpm
      · exact ⟨hmn, Nat.lt_succ_self n⟩
      · exact hkeep p hpm
    have hmn' : m < n + 1 := Nat.lt_succ_of_lt hmn
    rw [Line.follow_cons, hend, headingsFrom]
    split
    · exact ih hmn' (hnone m) _
    · exact ih hmn' hkeep _
    · exact ih hmn' hkeep _
    · split
      · -- a marked heading stands on the line itself
        have hrest := ih (Nat.lt_succ_self n) (hnone n) (Fence.openAfter fence l)
        rw [List.map_cons, List.cons_append, List.isChain_cons_cons]
        exact ⟨hmn, hrest⟩
      · split
        · next first more hrev =>
          have hfirst : m < first.1 ∧ first.1 < n :=
            hp first (List.mem_reverse.1 (hrev ▸ List.mem_cons_self))
          split
          · -- an underlined heading stands where its paragraph began, at `m` or below
            have hrest := ih (Nat.lt_succ_of_lt hfirst.2) (hnone first.1) (Fence.openAfter fence l)
            rw [List.map_cons, List.cons_append, List.isChain_cons_cons]
            exact ⟨hfirst.1, hrest⟩
          · split
            · exact ih hmn' (hnone m) _
            · exact ih hmn' hmore _
        · split
          · exact ih hmn' (hnone m) _
          · exact ih hmn' hmore _

/-- The headings of a body come in order, behind its beginning and up to its last line. -/
theorem isChain_headings {start : Nat} {lines : List Text} (h : start ≤ lines.length) :
    (start :: ((headings (Line.ofLines start lines)).map Heading.line ++
      [lines.length + 1])).IsChain (· < ·) := by
  have hend : start + 1 + (lines.drop start).length = lines.length + 1 := by
    rw [List.length_drop]
    omega
  rw [Line.ofLines_eq_follow, headings, ← hend]
  exact isChain_headingsFrom _ (Nat.lt_succ_self start) (by simp) none

/-! ## Ranges of lines -/

/-- Ranges of lines, each given by its first and its last line, that follow one another from behind
line `start` up to line `last`. -/
def Tiles (last : Nat) : (start : Nat) → List (Nat × Nat) → Prop
  | start, [] => start = last
  | start, r :: rs => r.1 = start + 1 ∧ r.1 ≤ r.2 ∧ Tiles last r.2 rs

namespace Tiles

variable {start last : Nat} {rs : List (Nat × Nat)}

theorem le (h : Tiles last start rs) : start ≤ last := by
  induction rs generalizing start with
  | nil => exact le_of_eq h
  | cons r rs ih =>
    obtain ⟨h1, h2, h3⟩ := h
    have := ih h3
    omega

/-- There is no range exactly if there is no line. -/
theorem eq_nil_iff (h : Tiles last start rs) : rs = [] ↔ start = last := by
  cases rs with
  | nil => exact ⟨fun _ => h, fun _ => rfl⟩
  | cons r rs =>
    obtain ⟨h1, h2, h3⟩ := h
    have := h3.le
    refine ⟨fun hnil => absurd hnil (by simp), fun heq => ?_⟩
    omega

theorem head? (h : Tiles last start rs) : ∀ r ∈ rs.head?, r.1 = start + 1 := by
  cases rs with
  | nil => simp
  | cons r rs =>
    intro r' hr'
    obtain rfl : r = r' := by simpa using hr'
    exact h.1

theorem getLast? (h : Tiles last start rs) : ∀ r ∈ rs.getLast?, r.2 = last := by
  induction rs generalizing start with
  | nil => simp
  | cons r rs ih =>
    obtain ⟨h1, h2, h3⟩ := h
    cases rs with
    | nil =>
      intro r' hr'
      obtain rfl : r = r' := by simpa using hr'
      exact h3
    | cons r' rs =>
      rw [List.getLast?_cons_cons]
      exact ih h3

theorem le_of_mem (h : Tiles last start rs) : ∀ r ∈ rs, start < r.1 ∧ r.1 ≤ r.2 ∧ r.2 ≤ last := by
  induction rs generalizing start with
  | nil => simp
  | cons r rs ih =>
    obtain ⟨h1, h2, h3⟩ := h
    intro r' hr'
    rcases List.mem_cons.1 hr' with rfl | hr'
    · exact ⟨by omega, h2, h3.le⟩
    · have := ih h3 r' hr'
      omega

/-- Each range begins on the line behind the one before it. -/
theorem isChain (h : Tiles last start rs) : rs.IsChain fun r r' => r'.1 = r.2 + 1 := by
  induction rs generalizing start with
  | nil => exact List.IsChain.nil
  | cons r rs ih =>
    obtain ⟨h1, h2, h3⟩ := h
    cases rs with
    | nil => exact List.isChain_singleton r
    | cons r' rs =>
      rw [List.isChain_cons_cons]
      exact ⟨h3.1, ih h3⟩

/-- The lines of the ranges are the lines from the first range to the last. -/
theorem flatten_slice (h : Tiles last start rs) (lines : List Text) :
    (rs.map (slice lines)).flatten = (lines.take last).drop start := by
  induction rs generalizing start with
  | nil =>
    obtain rfl : start = last := h
    simp
  | cons r rs ih =>
    obtain ⟨h1, h2, h3⟩ := h
    have hle := h3.le
    rw [List.map_cons, List.flatten_cons, ih h3, slice, h1, Nat.add_sub_cancel]
    have hfront : (lines.take r.2).drop start =
        ((lines.take last).drop start).take (r.2 - start) := by
      rw [← List.drop_take, List.take_take, Nat.min_eq_left hle]
    have hback : (lines.take last).drop r.2 =
        ((lines.take last).drop start).drop (r.2 - start) := by
      rw [List.drop_drop, Nat.add_sub_cancel' (by omega)]
    rw [hfront, hback, List.take_append_drop]

/-- A line lies in a range exactly if it lies between the ends. -/
theorem exists_mem_iff (h : Tiles last start rs) (n : Nat) :
    (∃ r ∈ rs, r.1 ≤ n ∧ n ≤ r.2) ↔ start < n ∧ n ≤ last := by
  induction rs generalizing start with
  | nil =>
    obtain rfl : start = last := h
    simp
  | cons r rs ih =>
    obtain ⟨h1, h2, h3⟩ := h
    have hle := h3.le
    simp only [List.mem_cons, exists_eq_or_imp, ih h3]
    omega

end Tiles

/-! ## Sections -/

namespace Section

/-- The first and the last line of a section. -/
def range (s : Section) : Nat × Nat := (s.first, s.last)

/-- The first and the last line of bounds. -/
def Bounds.range (b : Bounds) : Nat × Nat := (b.first, b.last)

/-- From the first heading on, headings in order cut the lines into ranges. -/
theorem tiles_boundsOf {last : Nat} (h : Heading) (hs : List Heading)
    (hchain : ((h :: hs).map Heading.line ++ [last + 1]).IsChain (· < ·)) (hpos : 0 < h.line) :
    Tiles last (h.line - 1) ((boundsOf last (h :: hs)).map Bounds.range) := by
  induction hs generalizing h with
  | nil =>
    have hlast : h.line < last + 1 := by simpa using hchain
    exact ⟨by simp [Bounds.range]; omega, Nat.lt_succ_iff.1 hlast, rfl⟩
  | cons next hs ih =>
    obtain ⟨hnext, hchain⟩ : h.line < next.line ∧ _ := List.isChain_cons_cons.1 hchain
    have hrest := ih next hchain (by omega)
    exact ⟨by simp [Bounds.range]; omega, by simp [Bounds.range]; omega, hrest⟩

/-- Headings in order cut the lines of a body into ranges, the first of which may have none. -/
theorem tiles_bounds {start last : Nat} {hs : List Heading}
    (hchain : (start :: (hs.map Heading.line ++ [last + 1])).IsChain (· < ·)) :
    Tiles last start ((bounds start last hs).map Bounds.range) := by
  cases hs with
  | nil =>
    have hlast : start < last + 1 := by simpa using hchain
    by_cases hlt : start + 1 < last + 1
    · simp [bounds, boundsOf, Bounds.range, Tiles, hlt]
      omega
    · simp [bounds, boundsOf, Tiles, hlt]
      omega
  | cons h hs =>
    obtain ⟨hstart, hchain⟩ : start < h.line ∧ _ := List.isChain_cons_cons.1 hchain
    have hrest := tiles_boundsOf h hs hchain (by omega)
    have hbounds : bounds start last (h :: hs) =
        (if start + 1 < h.line then [⟨start + 1, h.line - 1, []⟩] else []) ++
          boundsOf last (h :: hs) := rfl
    rw [hbounds]
    by_cases hlt : start + 1 < h.line
    · rw [if_pos hlt]
      exact ⟨rfl, by simp [Bounds.range]; omega, hrest⟩
    · obtain rfl : start = h.line - 1 := by omega
      rw [if_neg hlt]
      exact hrest

end Section

/-- How sections lie on the lines of a document whose body begins behind line `start`. -/
structure SectionPartition (start : Nat) (lines : List Text) (sections : List Section) : Prop where
  /-- There are sections unless the body has no lines. -/
  eq_nil_iff : sections = [] ↔ start = lines.length
  /-- The first section begins on the first line of the body. -/
  first_head : ∀ s ∈ sections.head?, s.first = start + 1
  /-- The last section ends on the last line. -/
  last_getLast : ∀ s ∈ sections.getLast?, s.last = lines.length
  /-- Every section has a line. -/
  first_le_last : ∀ s ∈ sections, s.first ≤ s.last
  /-- A section begins on the line behind the section before it. -/
  adjacent : sections.IsChain fun s s' => s'.first = s.last + 1
  /-- The content of a section is its lines. -/
  content_eq : ∀ s ∈ sections,
    s.content = Text.joinWith ['\n'] ((lines.take s.last).drop (s.first - 1))
  /-- The contents, put together, are the body. -/
  joinWith_contents : Text.joinWith ['\n'] (sections.map Section.content) =
    Text.joinWith ['\n'] (lines.drop start)

/-- Sections whose ranges follow one another partition the body. -/
theorem sectionPartition_of_tiles {start : Nat} {lines : List Text} {sections : List Section}
    (h : Tiles lines.length start (sections.map Section.range))
    (hcontent : ∀ s ∈ sections, s.content = Text.joinWith ['\n'] (slice lines s.range)) :
    SectionPartition start lines sections where
  eq_nil_iff := by rw [← h.eq_nil_iff, List.map_eq_nil_iff]
  first_head := fun s hs => h.head? s.range (by
    rw [List.head?_map, Option.mem_def.1 hs]
    rfl)
  last_getLast := fun s hs => h.getLast? s.range (by
    rw [List.getLast?_map, Option.mem_def.1 hs]
    rfl)
  first_le_last := fun s hs => (h.le_of_mem s.range (List.mem_map_of_mem hs)).2.1
  adjacent := (List.isChain_map Section.range).1 h.isChain
  content_eq := hcontent
  joinWith_contents := by
    have hne : ∀ ls ∈ sections.map (fun s => slice lines s.range), ls ≠ [] := by
      intro ls hls
      obtain ⟨s, hs, rfl⟩ := List.mem_map.1 hls
      have hrange := h.le_of_mem s.range (List.mem_map_of_mem hs)
      rw [ne_eq, ← List.length_eq_zero_iff, slice, List.length_drop, List.length_take]
      omega
    have hflat := h.flatten_slice lines
    rw [List.map_map, List.take_length] at hflat
    calc Text.joinWith ['\n'] (sections.map Section.content)
        = Text.joinWith ['\n'] ((sections.map fun s => slice lines s.range).map
            (Text.joinWith ['\n'])) := by
          rw [List.map_map]
          exact congrArg _ (List.map_congr_left hcontent)
      _ = Text.joinWith ['\n'] (sections.map fun s => slice lines s.range).flatten :=
          Text.joinWith_flatten _ hne
      _ = Text.joinWith ['\n'] (lines.drop start) := congrArg _ hflat

namespace Document

theorem withoutMark_of_ne {c : Char} (h : c ≠ '\ufeff') (t : Text) :
    withoutMark (c :: t) = c :: t := by
  rw [withoutMark]
  rintro u ⟨⟩
  exact h rfl

theorem withoutMark_append {t : Text} (ht : t ≠ []) (s : Text) :
    withoutMark (t ++ s) = withoutMark t ++ s := by
  obtain ⟨c, t, rfl⟩ := List.exists_cons_of_ne_nil ht
  by_cases hc : c = '\ufeff'
  · rw [hc]
    rfl
  · rw [List.cons_append, withoutMark_of_ne hc, withoutMark_of_ne hc, List.cons_append]

theorem withoutMark_suffix (t : Text) : withoutMark t <:+ t := by
  rw [withoutMark.eq_def]
  split
  · exact List.suffix_cons _ _
  · exact List.suffix_rfl

/-- The number of lines before the body is at most the number of lines. -/
theorem head_le_length_lines [Yaml.Loader] {t : Text} {m : Option Metadata} {start : Nat}
    (h : head t = .ok (m, start)) : start ≤ (Text.lines t).length := by
  rw [head] at h
  split at h
  · obtain ⟨-, rfl⟩ := Prod.mk.inj (Except.ok.inj h)
    exact Nat.zero_le _
  · next f hf =>
    cases hm : Metadata.read? f.block with
    | error e => simp [hm, Except.map] at h
    | ok m' =>
      rw [hm] at h
      obtain ⟨-, rfl⟩ := Prod.mk.inj (Except.ok.inj h)
      exact Frontmatter.bodyStart_le_length_lines hf

/-- A text is read if its head is. -/
theorem read_of_head [Yaml.Loader] {text : Text} {m : Option Metadata} {start : Nat}
    (h : head (withoutMark text) = .ok (m, start)) :
    read text = .ok (ofBody m start (withoutMark text)) := by
  rw [read]
  simp only [h]
  rfl

/-- A document that was read is what its head and its body give. -/
theorem read_eq_ok [Yaml.Loader] {text : Text} {d : Document} (h : read text = .ok d) :
    ∃ m start, head (withoutMark text) = .ok (m, start) ∧ d = ofBody m start (withoutMark text) := by
  rw [read] at h
  cases hm : head (withoutMark text) with
  | error e =>
    rw [hm] at h
    cases h
  | ok r =>
    rw [hm] at h
    exact ⟨r.1, r.2, rfl, (Except.ok.inj h).symm⟩

/-- The ranges of the sections follow one another from the beginning of the body to its end. -/
theorem tiles_sections (m : Option Metadata) {start : Nat} {t : Text}
    (h : start ≤ (Text.lines t).length) :
    Tiles (Text.lines t).length start ((ofBody m start t).sections.map Section.range) := by
  have htiles := Section.tiles_bounds (isChain_headings h)
  rw [ofBody, List.map_map]
  exact htiles

/-- **Sections partition the body.** In every document that is read, the sections cut the lines
behind its head, in order, without a gap and without an overlap. -/
theorem sections_partition_body [Yaml.Loader] {text : Text} {d : Document} (h : read text = .ok d) :
    ∃ m start, head (withoutMark text) = .ok (m, start) ∧
      SectionPartition start (Text.lines (withoutMark text)) d.sections := by
  obtain ⟨m, start, hhead, rfl⟩ := read_eq_ok h
  refine ⟨m, start, hhead, sectionPartition_of_tiles (tiles_sections m ?_) ?_⟩
  · exact head_le_length_lines hhead
  · intro s hs
    obtain ⟨b, -, rfl⟩ := List.mem_map.1 hs
    rfl

/-- Behind a byte order mark, a heading of two lines, and a fence that is not closed with a number sign
behind it. -/
def twoLineHeading : Text := "\uFEFFIntro\n\nTitle\nmore\n===\n```\n# no\n".toList

/-- The mark does not belong to the first section. -/
theorem sections_partition_two_line_heading :
    ∃ d, read twoLineHeading = .ok d ∧
      d.sections.map Section.range = [(1, 2), (3, 7)] ∧
      d.sections.map Section.content =
        ["Intro\n".toList, "Title\nmore\n===\n```\n# no".toList] ∧
      ∃ m start, head (withoutMark twoLineHeading) = .ok (m, start) ∧
        SectionPartition start (Text.lines (withoutMark twoLineHeading)) d.sections := by
  have h : read twoLineHeading = .ok (ofBody none 0 (withoutMark twoLineHeading)) := rfl
  exact ⟨_, h, by decide, by decide +kernel, sections_partition_body h⟩

end Document

end ScriptAudit
