import ScriptAudit.Proofs.Document.Sections

/-!
# The delimiter between head and body

Sections and commands are placed by lines, the beginning of the body by line feeds.
`boundary_of_split?` says when the two agree: exactly if every line of the head ends in a line feed,
which a carriage return may precede. Otherwise the line of the second delimiter is taken for a line
of the body; `bodyStart_lone_return` is a head with one lone carriage return.
-/

namespace ScriptAudit.Frontmatter

open Text (lines strays PlainBreaks)

/-- How the second delimiter lies on the lines of a text. -/
structure Boundary (t : Text) (f : Frontmatter) : Prop where
  /-- The text up to the dashes of the delimiter has the lines of the whole text, the last one
  without the blanks behind it. -/
  lines_eq : ∃ above dashes rim below, lines (delimited t f) = above ++ [dashes] ∧
    lines t = above ++ (dashes ++ rim) :: below ∧ 3 ≤ dashes.length ∧ (∀ c ∈ dashes, c = '-') ∧
      ∀ c ∈ rim, isBlank c = true
  /-- The body begins behind the delimiter or earlier. -/
  bodyStart_le : f.bodyStart t ≤ (lines (delimited t f)).length
  /-- It begins behind the delimiter exactly if all lines above have plain ends. -/
  bodyStart_eq_iff : f.bodyStart t = (lines (delimited t f)).length ↔ PlainBreaks (delimited t f)
  /-- The delimiter belongs to a section exactly if some line above has another end. -/
  exists_section_iff : ∀ m,
    (∃ s ∈ (Document.ofBody m (f.bodyStart t) t).sections,
      s.first ≤ (lines (delimited t f)).length ∧ (lines (delimited t f)).length ≤ s.last) ↔
        ¬ PlainBreaks (delimited t f)

/-- **Where the body begins.** The lines before the body are those of the head, its second delimiter
included, exactly if all lines of the head have plain ends. -/
theorem boundary_of_split? {t : Text} {f : Frontmatter} (h : split? t = some f) : Boundary t f := by
  have hstart := bodyStart_add_strays h
  have hplain : strays (delimited t f) = 0 ↔ PlainBreaks (delimited t f) :=
    Text.strays_eq_zero_iff
  obtain ⟨before, dashes, margin, hcut⟩ := exists_cut h
  obtain ⟨rim, below, hlines, hrim⟩ := hcut.exists_lines_eq
  have hn : (lines (delimited t f)).length ≤ (lines t).length := by
    rw [hlines, hcut.lines_delimited]
    simp
  refine ⟨⟨_, dashes, rim, below, hcut.lines_delimited, hlines, hcut.three_le, hcut.eq_dash, hrim⟩,
    by omega, ?_, fun m => ?_⟩
  · rw [← hplain]
    omega
  · -- the sections cover exactly the lines behind the beginning of the body
    have htiles := Document.tiles_sections m (bodyStart_le_length_lines h)
    have hcover := htiles.exists_mem_iff (lines (delimited t f)).length
    rw [← hplain]
    simp only [List.mem_map, exists_exists_and_eq_and, Section.range] at hcover
    rw [hcover]
    omega

/-- A head whose lines end in carriage return and line feed. -/
theorem boundary_return_line_feed :
    ∃ f, split? "---\r\ntype: Test Case\r\n--- \r\n\r\nText\r\n" = some f ∧
      f.bodyStart "---\r\ntype: Test Case\r\n--- \r\n\r\nText\r\n" = 3 ∧
      Boundary "---\r\ntype: Test Case\r\n--- \r\n\r\nText\r\n" f :=
  ⟨_, rfl, rfl, boundary_of_split? rfl⟩

/-- Behind a lone carriage return the delimiter stands on line 4, but the body begins behind
line 3. -/
theorem bodyStart_lone_return :
    ∃ f, split? "---\ntype: Test Case\rowner: me\n---\nText\n" = some f ∧
      f.bodyStart "---\ntype: Test Case\rowner: me\n---\nText\n" = 3 ∧
      (lines (delimited "---\ntype: Test Case\rowner: me\n---\nText\n" f)).length = 4 :=
  ⟨_, rfl, rfl, rfl⟩

end ScriptAudit.Frontmatter
