import ScriptAudit.Proofs.Document.Commands
import ScriptAudit.Proofs.Document.Heads
import ScriptAudit.Yaml.Standard

/-!
# Documents that go on

When a text goes on, what has been found in it is found again, unless something is still open at its
end: a fence, a head, or a paragraph of which the next line may make a heading. Only the last
section takes in more lines.

* `Line.Closed` — all fences are closed, and `Line.foldl_openAfter_eq_none_iff`: this is what the
  scan knows behind the last line.
* `Line.ofLines_append`, `scriptBlocks_append`, `headings_append` — roles, blocks and headings on
  both sides of a seam.
* `Section.prefix_map_ofBounds_append` — sections on both sides of a seam.
* `Document.Settled` — nothing is open at the end of a text.
* `Document.exists_read_append` — what is found in a text that goes on.
-/

namespace ScriptAudit

/-! ## Fences that are closed -/

namespace Line

variable {n : Nat} {fence : Option Fence} {ls : List Line}

/-- Behind every line that opens a fence stands one that closes it. -/
def Closed (ls : List Line) : Prop :=
  ∀ above l below, ls = above ++ l :: below → ∀ f, l.role = .opens f →
    ∃ l' ∈ below, l'.role = .closes

theorem closed_nil : Closed [] := by
  intro above l below h
  simp at h

theorem closed_cons {l : Line} : Closed (l :: ls) ↔
    (∀ f, l.role = .opens f → ∃ l' ∈ ls, l'.role = .closes) ∧ Closed ls := by
  constructor
  · intro h
    refine ⟨h [] l ls rfl, fun above l' below heq => ?_⟩
    exact h (l :: above) l' below (by rw [heq, List.cons_append])
  · rintro ⟨hl, hls⟩ above l' below heq
    cases above with
    | nil =>
      obtain ⟨rfl, rfl⟩ := List.cons.inj heq
      exact hl
    | cons _ above =>
      obtain ⟨-, rfl⟩ := List.cons.inj heq
      exact hls above l' below rfl

/-- No fence is open behind the last line exactly if every fence is closed, one that is open before
the first line included. -/
theorem foldl_openAfter_eq_none_iff {ls : List Text} : ls.foldl Fence.openAfter fence = none ↔
    (fence.isSome = true → ∃ l ∈ follow n fence ls, l.role = .closes) ∧
      Closed (follow n fence ls) := by
  induction ls generalizing n fence with
  | nil => cases fence <;> simp [closed_nil]
  | cons l ls ih =>
    rw [List.foldl_cons, ih (n := n + 1), follow_cons, closed_cons]
    -- one case for each role that the line may have
    cases fence with
    | none => cases hopen : Fence.ofLine? l <;> simp [Fence.openAfter, Role.ofLine, hopen]
    | some f =>
      cases hcloses : Fence.closes f.marks l <;>
        simp [Fence.openAfter, Role.ofLine, hcloses]

theorem Closed.foldl_openAfter {start : Nat} {lines : List Text}
    (h : Closed (ofLines start lines)) : (lines.drop start).foldl Fence.openAfter none = none :=
  (foldl_openAfter_eq_none_iff (n := start + 1)).2 ⟨by simp, h⟩

/-- The lines behind a seam have the roles that they have behind the fence that is open there. -/
theorem follow_append (n : Nat) (fence : Option Fence) (ls ms : List Text) :
    follow n fence (ls ++ ms) =
      follow n fence ls ++ follow (n + ls.length) (ls.foldl Fence.openAfter fence) ms := by
  induction ls generalizing n fence with
  | nil => rfl
  | cons l ls ih =>
    rw [List.cons_append, follow_cons, follow_cons, ih, List.length_cons, List.foldl_cons,
      Nat.add_right_comm]
    rfl

/-- Behind a body in which every fence is closed, lines have the roles that they have in a body of
their own. -/
theorem ofLines_append {start : Nat} {lines : List Text} (hstart : start ≤ lines.length)
    (h : Closed (ofLines start lines)) (more : List Text) : ofLines start (lines ++ more) =
      ofLines start lines ++ ofLines lines.length (lines ++ more) := by
  have hlength : start + 1 + (lines.drop start).length = lines.length + 1 := by
    rw [List.length_drop]
    omega
  rw [ofLines_eq_follow, ofLines_eq_follow, ofLines_eq_follow, List.drop_left,
    List.drop_append_of_le_length hstart, follow_append, h.foldl_openAfter, hlength]

end Line

/-! ## Blocks on both sides of a seam -/

theorem splitBlocks_ofLines_fst (start : Nat) (lines : List Text) :
    (splitBlocks (Line.ofLines start lines)).1 = [] := by
  rw [Line.ofLines_eq_follow]
  cases lines.drop start with
  | nil => rfl
  | cons l ls =>
    cases hopen : Fence.ofLine? l with
    | none => rw [splitBlocks_prose _ ls hopen]
    | some f => rw [splitBlocks_opens _ ls hopen]

/-- Blocks stay as they are when lines of another body follow. -/
theorem splitBlocks_append {ls ms : List Line} (h : (splitBlocks ms).1 = []) :
    splitBlocks (ls ++ ms) = ((splitBlocks ls).1, (splitBlocks ls).2 ++ (splitBlocks ms).2) := by
  induction ls with
  | nil => rw [List.nil_append, splitBlocks, ← h, List.nil_append]
  | cons l ls ih =>
    rw [List.cons_append, splitBlocks, splitBlocks, ih]
    cases l.role <;> rfl

theorem scriptBlocks_append (ls : List Line) (start : Nat) (lines : List Text) :
    scriptBlocks (ls ++ Line.ofLines start lines) =
      scriptBlocks ls ++ scriptBlocks (Line.ofLines start lines) := by
  rw [scriptBlocks, codeBlocks, splitBlocks_append (splitBlocks_ofLines_fst start lines),
    List.filter_append]
  rfl

/-! ## Headings on both sides of a seam -/

section

variable {l : Text}

theorem isBlank_of_afterIndent? (hl : Text.blank l = true) {c : Char} {t : Text}
    (h : Fence.afterIndent? l = some (c :: t)) : isBlank c = true := by
  rw [Fence.afterIndent?] at h
  split at h
  · have hmem : c ∈ l.drop (Text.spaces l) := by
      rw [Option.some.inj h]
      exact List.mem_cons_self
    exact List.all_eq_true.1 hl c (List.mem_of_mem_drop hmem)
  · cases h

theorem ofLine?_of_blank (hl : Text.blank l = true) : Fence.ofLine? l = none := by
  unfold Fence.ofLine?
  cases h : Fence.afterIndent? l with
  | none => rfl
  | some t =>
    cases t with
    | nil => rfl
    | cons c t =>
      have hc := isBlank_of_afterIndent? hl h
      have hmark : c ≠ '\x60' ∧ c ≠ '~' := by
        constructor <;> rintro rfl <;> exact absurd hc (by decide)
      simp [hmark]

theorem markedHeading?_of_blank (hl : Text.blank l = true) : markedHeading? l = none := by
  unfold markedHeading?
  cases h : Fence.afterIndent? l with
  | none => rfl
  | some t =>
    have hsigns : t.takeWhile (· == '#') = [] := by
      cases t with
      | nil => rfl
      | cons c t =>
        have hc := isBlank_of_afterIndent? hl h
        have hsign : ¬ (c == '#') = true := by
          intro heq
          rw [beq_iff_eq.1 heq] at hc
          exact absurd hc (by decide)
        exact List.takeWhile_cons_of_neg hsign
    show (if (t.takeWhile (· == '#')).isEmpty || _ then none else _) = none
    rw [hsigns]
    rfl

theorem isUnderline_of_blank (hl : Text.blank l = true) : isUnderline l = false := by
  unfold isUnderline
  cases h : Fence.afterIndent? l with
  | none => rfl
  | some t =>
    cases t with
    | nil => rfl
    | cons c t =>
      have hc := isBlank_of_afterIndent? hl h
      have hmark : c ≠ '=' ∧ c ≠ '-' := by
        constructor <;> rintro rfl <;> exact absurd hc (by decide)
      simp [hmark]

/-- A blank line closes no fence. -/
theorem closes_of_blank (hl : Text.blank l = true) {marks : Text} (hmarks : marks ≠ []) :
    Fence.closes marks l = false := by
  obtain ⟨c, cs, rfl⟩ := List.exists_cons_of_ne_nil hmarks
  have htrim : Text.trim l = [] := by
    rw [Text.trim, Text.trimLeft_of_blank hl]
    rfl
  unfold Fence.closes
  rw [htrim]
  rfl

end

/-- A fence is opened by backquotes or by tildes. -/
theorem Fence.head?_marks {l : Text} {f : Fence} (h : ofLine? l = some f) :
    f.marks.head? = some '\x60' ∨ f.marks.head? = some '~' := by
  unfold ofLine? at h
  obtain ⟨t, -, h⟩ := Option.bind_eq_some_iff.1 h
  obtain ⟨mark, hmark, h⟩ := Option.bind_eq_some_iff.1 h
  obtain ⟨rest, rfl⟩ := List.head?_eq_some_iff.1 hmark
  split at h
  · cases h
  · next hkind =>
    dsimp only at h
    split at h
    · cases h
    · obtain rfl := Option.some.inj h
      have hhead : ((mark :: rest).takeWhile (· == mark)).head? = some mark := by simp
      rw [hhead, Option.some.injEq, Option.some.injEq]
      by_contra hne
      rw [not_or] at hne
      exact hkind hne

theorem Fence.marks_ne_nil {l : Text} {f : Fence} (h : ofLine? l = some f) : f.marks ≠ [] := by
  intro hnil
  rcases head?_marks h with hmark | hmark <;> rw [hnil] at hmark <;> cases hmark

/-- A fence that is open behind some lines has been opened by one of them, and none of those behind
that one closes it. -/
theorem Fence.exists_opening {ls : List Text} {f : Fence} (h : ls.foldl openAfter none = some f) :
    ∃ outer l pre, ls = outer ++ l :: pre ∧ outer.foldl openAfter none = none ∧
      ofLine? l = some f ∧ ∀ k ∈ pre, closes f.marks k = false := by
  induction ls using List.reverseRecOn generalizing f with
  | nil => cases h
  | append_singleton ls l ih =>
    rw [List.foldl_append, List.foldl_cons, List.foldl_nil] at h
    cases hopen : ls.foldl openAfter none with
    | none =>
      rw [hopen] at h
      exact ⟨ls, l, [], rfl, hopen, h, by simp⟩
    | some f' =>
      rw [hopen, openAfter] at h
      split at h
      · cases h
      · next hcloses =>
        obtain rfl := Option.some.inj h
        obtain ⟨outer, k, pre, rfl, hnone, hk, hpre⟩ := ih hopen
        refine ⟨outer, k, pre ++ [l], by simp, hnone, hk, List.forall_mem_append.2 ⟨hpre, ?_⟩⟩
        exact List.forall_mem_singleton.2 (by simpa using hcloses)

theorem Fence.marks_ne_nil_of_foldl {ls : List Text} {f : Fence}
    (h : ls.foldl openAfter none = some f) : f.marks ≠ [] := by
  obtain ⟨-, l, -, -, -, hl, -⟩ := exists_opening h
  exact marks_ne_nil hl

/-- A fence that is not open behind a blank line is not open in front of it. -/
theorem Fence.foldl_eq_none_of_blank {ls : List Text} {l : Text} (hl : Text.blank l = true)
    (h : (ls ++ [l]).foldl openAfter none = none) : ls.foldl openAfter none = none := by
  rw [List.foldl_append, List.foldl_cons, List.foldl_nil] at h
  cases hopen : ls.foldl openAfter none with
  | none => rfl
  | some f =>
    rw [hopen, openAfter, closes_of_blank hl (marks_ne_nil_of_foldl hopen)] at h
    cases h

/-- Headings in front of a line that only ends the paragraph are known. -/
theorem headingsFrom_append {l : Line}
    (hl : ∀ paragraph more, headingsFrom paragraph (l :: more) = headingsFrom [] more)
    (paragraph : List (Nat × Text)) (ls ms : List Line) :
    headingsFrom paragraph (ls ++ l :: ms) = headingsFrom paragraph ls ++ headingsFrom [] ms := by
  induction ls generalizing paragraph with
  | nil => exact hl paragraph ms
  | cons k ls ih =>
    simp only [List.cons_append, headingsFrom, ih]
    cases k.role with
    | opens => rfl
    | code => rfl
    | closes => rfl
    | prose =>
      cases markedHeading? k.text with
      | some => rfl
      | none =>
        cases paragraph.reverse with
        | nil => cases Text.blank k.text <;> rfl
        | cons first more =>
          cases isUnderline k.text <;> cases Text.blank k.text <;> rfl

/-- A blank line of the running text ends the paragraph, and headings in front of it are known. -/
theorem headingsFrom_append_blank (paragraph : List (Nat × Text)) (ls : List Line) {l : Line}
    (hrole : l.role = .prose) (hblank : Text.blank l.text = true) (ms : List Line) :
    headingsFrom paragraph (ls ++ l :: ms) =
      headingsFrom paragraph (ls ++ [l]) ++ headingsFrom [] ms := by
  have hend (paragraph : List (Nat × Text)) (more : List Line) :
      headingsFrom paragraph (l :: more) = headingsFrom [] more := by
    rw [headingsFrom, hrole, markedHeading?_of_blank hblank, isUnderline_of_blank hblank, hblank]
    cases paragraph.reverse <;> rfl
  rw [headingsFrom_append hend, headingsFrom_append hend, headingsFrom, List.append_nil]

/-- Headings stay as they are when lines follow behind a blank line and all fences are closed. -/
theorem headings_append {start : Nat} {lines : List Text}
    (hclosed : Line.Closed (Line.ofLines start lines))
    (hlast : ∀ l ∈ lines.getLast?, Text.blank l = true) (ms : List Line) :
    headings (Line.ofLines start lines ++ ms) =
      headings (Line.ofLines start lines) ++ headings ms := by
  rcases List.eq_nil_or_concat (lines.drop start) with hnil | ⟨ls, l, hdrop⟩
  · rw [Line.ofLines_eq_follow, hnil]
    rfl
  · have hblank : Text.blank l = true := by
      have hl : (lines.drop start).getLast? = some l := by
        rw [hdrop, List.concat_eq_append, List.getLast?_concat]
      rw [List.getLast?_drop] at hl
      split at hl
      · cases hl
      · exact hlast l hl
    have hopen : ls.foldl Fence.openAfter none = none := by
      have hnone := hclosed.foldl_openAfter
      rw [hdrop, List.concat_eq_append] at hnone
      exact Fence.foldl_eq_none_of_blank hblank hnone
    rw [Line.ofLines_eq_follow, hdrop, List.concat_eq_append, Line.follow_append, hopen,
      Line.follow_cons, Line.follow_nil, List.append_assoc, List.singleton_append]
    refine headingsFrom_append_blank [] _ ?_ hblank ms
    rw [Role.ofLine, ofLine?_of_blank hblank]

/-! ## Sections on both sides of a seam -/

namespace Section

theorem boundsOf_ne_nil (last : Nat) (h : Heading) (hs : List Heading) :
    boundsOf last (h :: hs) ≠ [] := by
  cases hs <;> exact List.cons_ne_nil _ _

/-- All bounds but the last stay as they are when headings follow. -/
theorem prefix_boundsOf_append (last last' : Nat) (h : Heading) (hs more : List Heading) :
    (boundsOf last (h :: hs)).dropLast <+: boundsOf last' (h :: hs ++ more) := by
  induction hs generalizing h with
  | nil => exact List.nil_prefix
  | cons next hs ih =>
    rw [boundsOf, List.dropLast_cons_of_ne_nil (boundsOf_ne_nil last next hs)]
    exact List.cons_prefix_cons.2 ⟨rfl, ih next⟩

theorem prefix_bounds_append (start last last' : Nat) (hs more : List Heading) :
    (bounds start last hs).dropLast <+: bounds start last' (hs ++ more) := by
  cases hs with
  | nil =>
    have hnil : (bounds start last []).dropLast = [] := by
      rw [bounds, boundsOf, List.append_nil]
      split <;> rfl
    rw [hnil]
    exact List.nil_prefix
  | cons h hs =>
    rw [bounds, bounds, List.dropLast_append_of_ne_nil (boundsOf_ne_nil last h hs)]
    exact (List.prefix_append_right_inj _).2 (prefix_boundsOf_append last last' h hs more)

/-- A section is the same when lines, and commands on these lines, follow. -/
theorem ofBounds_append {lines : List Text} {b : Bounds} (hb : b.last ≤ lines.length)
    {cs' : List Command} (hcs' : ∀ c ∈ cs', lines.length < c.line) (cs : List Command)
    (more : List Text) : ofBounds (lines ++ more) (cs ++ cs') b = ofBounds lines cs b := by
  have hnone : (cs'.filter fun c => b.first ≤ c.line && c.line ≤ b.last) = [] := by
    refine List.filter_eq_nil_iff.2 fun c hc hinside => ?_
    have hline := hcs' c hc
    simp only [Bool.and_eq_true, decide_eq_true_eq] at hinside
    omega
  unfold ofBounds
  rw [List.take_append_of_le_length hb, List.filter_append, hnone, List.append_nil]

/-- All sections but the last are the same when lines, headings and commands follow. -/
theorem prefix_map_ofBounds_append {start : Nat} {lines : List Text} {hs : List Heading}
    (hhs : (start :: (hs.map Heading.line ++ [lines.length + 1])).IsChain (· < ·))
    {cs' : List Command} (hcs' : ∀ c ∈ cs', lines.length < c.line) (cs : List Command)
    (more : List Text) (last' : Nat) (hs' : List Heading) :
    ((bounds start lines.length hs).map (ofBounds lines cs)).dropLast <+:
      (bounds start last' (hs ++ hs')).map (ofBounds (lines ++ more) (cs ++ cs')) := by
  have hsame : ∀ b ∈ (bounds start lines.length hs).dropLast,
      ofBounds lines cs b = ofBounds (lines ++ more) (cs ++ cs') b := by
    intro b hb
    have hmem := List.mem_map_of_mem (f := Bounds.range) (List.mem_of_mem_dropLast hb)
    exact (ofBounds_append ((tiles_bounds hhs).le_of_mem _ hmem).2.2 hcs' cs more).symm
  rw [← List.map_dropLast, List.map_congr_left hsame]
  exact (prefix_bounds_append start lines.length last' hs hs').map _

end Section

/-! ## Documents -/

namespace Document

/-- The lines of the body of a text. -/
def body (t : Text) : List Line :=
  Line.ofLines ((Frontmatter.boundary? t).getD 0) (Text.lines t)

/-- Nothing is open at the end of a text. -/
structure Settled (t : Text) : Prop where
  /-- The text ends with a line feed. -/
  getLast?_eq : t.getLast? = some '\n'
  /-- Its last line is blank. -/
  blank_last : ∀ l ∈ (Text.lines t).getLast?, Text.blank l = true
  /-- All fences in its body are closed. -/
  closed : Line.Closed (body t)
  /-- It does not begin like a head, or the head is closed. -/
  head_closed : ¬ ['-', '-', '-'] <+: t ∨ (Frontmatter.split? t).isSome = true

/-- What has been found in a document comes first in another one, except for the last section, which
may go on. -/
structure Continues (d d' : Document) : Prop where
  commands : d.commands <+: d'.commands
  usages : d.usages <+: d'.usages
  patterns : d.patterns <+: d'.patterns
  sections : d.sections.dropLast <+: d'.sections
  metadata_eq : d'.metadata = d.metadata
  fileType_eq : d'.fileType = d.fileType

theorem lines_append {t : Text} (h : t.getLast? = some '\n') (u : Text) :
    Text.lines (t ++ u) = Text.lines t ++ Text.lines u := by
  obtain ⟨v, rfl⟩ := List.getLast?_eq_some_iff.1 h
  rw [List.append_assoc, List.singleton_append, Text.lines_newline_append]

/-- The commands of lines behind line `start` stand behind it. -/
theorem lt_line_of_mem_commands {t : Text} {start : Nat} (hstart : start ≤ (Text.lines t).length)
    {c : Command}
    (hc : c ∈ (scriptBlocks (Line.ofLines start (Text.lines t))).flatMap Script.commands) :
    start < c.line := by
  have hfeeds : ∀ l ∈ Text.lines t, '\n' ∉ l := fun l => Text.lineFeed_notMem_of_mem_lines
  obtain ⟨-, f, l, hcontent, -⟩ := (Script.commandCover_scriptBlocks hfeeds hstart).located c hc
  exact hcontent.start_lt

/-- Bodies on both sides of a seam. -/
theorem continues_ofBody {t : Text} {start : Nat} (hstart : start ≤ (Text.lines t).length)
    (hend : t.getLast? = some '\n') (hlast : ∀ l ∈ (Text.lines t).getLast?, Text.blank l = true)
    (hclosed : Line.Closed (Line.ofLines start (Text.lines t))) (m : Option Metadata) (u : Text) :
    Continues (ofBody m start t) (ofBody m start (t ++ u)) := by
  have hlines := lines_append hend u
  have hbody : Line.ofLines start (Text.lines (t ++ u)) = Line.ofLines start (Text.lines t) ++
      Line.ofLines (Text.lines t).length (Text.lines (t ++ u)) := by
    rw [hlines]
    exact Line.ofLines_append hstart hclosed _
  have hblocks := scriptBlocks_append (Line.ofLines start (Text.lines t)) (Text.lines t).length
    (Text.lines (t ++ u))
  rw [← hbody] at hblocks
  have hcommands : (ofBody m start (t ++ u)).commands = (ofBody m start t).commands ++
      (scriptBlocks (Line.ofLines (Text.lines t).length (Text.lines (t ++ u)))).flatMap
        Script.commands := by
    show (scriptBlocks (Line.ofLines start (Text.lines (t ++ u)))).flatMap Script.commands = _
    rw [hblocks, List.flatMap_append]
    rfl
  refine ⟨?_, ?_, ?_, ?_, rfl, rfl⟩
  · rw [hcommands]
    exact List.prefix_append _ _
  · show Variable.ofBlocks _ <+: Variable.ofBlocks _
    rw [hblocks, Variable.ofBlocks, Variable.ofBlocks, List.flatMap_append]
    exact List.prefix_append _ _
  · show Pattern.ofLines _ <+: Pattern.ofLines _
    rw [hlines, Pattern.ofLines, Pattern.ofLines, List.mapIdx_append, List.flatten_append]
    exact List.prefix_append _ _
  · show (List.map _ (Section.bounds start _ _)).dropLast <+:
      List.map (Section.ofBounds _ (ofBody m start (t ++ u)).commands) (Section.bounds start _ _)
    have hle : (Text.lines t).length ≤ (Text.lines (t ++ u)).length := by
      rw [hlines, List.length_append]
      exact Nat.le_add_right _ _
    have hprefix := Section.prefix_map_ofBounds_append (isChain_headings hstart)
      (fun c hc => lt_line_of_mem_commands hle hc) (ofBody m start t).commands (Text.lines u)
      (Text.lines (t ++ u)).length
      (headings (Line.ofLines (Text.lines t).length (Text.lines (t ++ u))))
    rw [hcommands, hbody, headings_append hclosed hlast]
    rwa [← hlines] at hprefix

/-- **What has been found in a document is found again when it goes on.** Behind a text at whose end
nothing is open, any text may follow: the document is read, its metadata are the same, and its
commands, variables, patterns and sections come first, the last section excepted. -/
theorem exists_read_append [Yaml.Loader] {t : Text} {d : Document} (hread : read t = .ok d)
    (h : Settled (withoutMark t)) (u : Text) :
    ∃ d', read (t ++ u) = .ok d' ∧ Continues d d' := by
  have hne : t ≠ [] := by
    rintro rfl
    cases h.getLast?_eq
  obtain ⟨m, start, hhead, rfl⟩ := read_eq_ok hread
  have hhead' := head_append h.getLast?_eq h.head_closed hhead u
  refine ⟨ofBody m start (withoutMark t ++ u), ?_, ?_⟩
  · rw [read, withoutMark_append hne, hhead']
    rfl
  · have hclosed := h.closed
    rw [body, ← start_of_head hhead] at hclosed
    exact continues_ofBody (head_le_length_lines hhead) h.getLast?_eq h.blank_last hclosed m u

/-- A document with a mark of the byte order, a head, headings of both kinds and a call with a body.
Its last line is blank. -/
def openEnded : Text :=
  "\ufeff---\ntype: Test Case\n---\n\nGiven\n===\n~~~ tar\nPost /a\n".toList ++
    "\x7b\n \"n\": 1\n\x7d\nPrint \x7b$n\x7d\n~~~\n# Act\n \n".toList

/-- A line that would make a heading of a paragraph above it, and a fence that is not closed. -/
def added : Text := "===\n---\n```\nGet /b\n".toList

/-- The document goes on with the line below a paragraph, but there is none. -/
theorem exists_read_append_added :
    ∃ d d', read openEnded = .ok d ∧ Settled (withoutMark openEnded) ∧
      read (openEnded ++ added) = .ok d' ∧ Continues d d' ∧
      d.commands.length = 2 ∧ d.sections.length = 3 ∧ d'.commands.length = 3 := by
  have hsettled : Settled (withoutMark openEnded) := by
    have hlast : (Text.lines (withoutMark openEnded)).getLast? = some [' '] := by decide +kernel
    have hboundary : Frontmatter.boundary? (withoutMark openEnded) = some 3 := by decide +kernel
    have hnone : (((Text.lines (withoutMark openEnded)).drop 3).foldl Fence.openAfter none).isNone =
        true := by decide +kernel
    refine ⟨by decide +kernel, ?_, ?_, Or.inr (by decide +kernel)⟩
    · rw [hlast]
      rintro l ⟨⟩
      rfl
    · rw [body, hboundary]
      exact (Line.foldl_openAfter_eq_none_iff.1 (Option.isNone_iff_eq_none.1 hnone)).2
  have hcounts : ((read openEnded).toOption.map fun d => (d.commands.length, d.sections.length)) =
      some (2, 3) := by decide +kernel
  have hcount' : ((read (openEnded ++ added)).toOption.map fun d => d.commands.length) =
      some 3 := by decide +kernel
  obtain ⟨d, hd⟩ : Answers (read openEnded) := by decide +kernel
  obtain ⟨d', hd', hcontinues⟩ := exists_read_append hd hsettled added
  rw [hd] at hcounts
  rw [hd'] at hcount'
  obtain ⟨hcommands, hsections⟩ := Prod.mk.inj (Option.some.inj hcounts)
  exact ⟨d, d', hd, hsettled, hd', hcontinues, hcommands, hsections, Option.some.inj hcount'⟩

end Document

end ScriptAudit
