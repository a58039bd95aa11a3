import ScriptAudit.Proofs.Document.Fences
import ScriptAudit.Yaml.Standard

/-!
# Lines that begin with inline code

The word behind a fence of backquotes holds none, but the rest of the line is not looked at. So a line
that begins with inline code between three or more backquotes is no running text: it opens a fence,
whatever stands behind it (`Document.inlineCode_opens`).
-/

namespace ScriptAudit

/-- A line that begins, behind three spaces at most, with three or more backquotes, and holds another
one behind them. -/
structure InlineCode where
  indent : Nat
  ticks : Nat
  behind : Text
  indent_le : indent ≤ 3
  le_ticks : 3 ≤ ticks
  head?_ne : '\x60' ∉ behind.head?
  mem_behind : '\x60' ∈ behind

namespace InlineCode

variable (s : InlineCode)

/-- The line. -/
def text : Text := Text.copies s.indent ' ' ++ (Text.copies s.ticks '\x60' ++ s.behind)

/-- The fence that the line is taken for. -/
def fence : Fence where
  marks := Text.copies s.ticks '\x60'
  info := (Text.trimLeft s.behind).takeWhile fun c => !isBlank c && c ≠ '\x60'

/-- Nothing is asked of the line behind the word that follows the first backquotes. -/
theorem ofLine?_inlineCode : Fence.ofLine? s.text = some s.fence := by
  obtain ⟨k, hk⟩ : ∃ k, s.ticks = k + 1 := ⟨s.ticks - 1, by have := s.le_ticks; omega⟩
  have hhead : (Text.copies s.ticks '\x60' ++ s.behind).head? = some '\x60' := by
    rw [hk, Text.copies, List.replicate_succ]
    rfl
  have hspaces : Text.spaces s.text = s.indent := by
    rw [Text.spaces, text, Text.takeWhile_append_of_head? (by simp) fun c hc => ?_,
      List.length_replicate]
    rw [hhead] at hc
    exact Option.some.inj hc ▸ by decide
  have hafter : Fence.afterIndent? s.text = some (Text.copies s.ticks '\x60' ++ s.behind) := by
    rw [Fence.afterIndent?]
    simp only [hspaces]
    rw [if_pos s.indent_le, text, List.drop_left' List.length_replicate]
  have hmarks : (Text.copies s.ticks '\x60' ++ s.behind).takeWhile (· == '\x60') =
      Text.copies s.ticks '\x60' := by
    refine Text.takeWhile_append_of_head? (by simp) fun c hc => ?_
    rw [beq_eq_false_iff_ne]
    rintro rfl
    exact s.head?_ne hc
  rw [Fence.ofLine?, hafter]
  simp only [Option.bind_eq_bind, Option.bind_some, hhead, hmarks]
  have hthree : ¬ s.ticks < 3 := Nat.not_lt.2 s.le_ticks
  simp [hthree, fence]

end InlineCode

namespace Document

/-- **Inline code at the beginning of a line opens a block.** In every document whose head is read, a
line outside of fences that begins with inline code between three or more backquotes opens a fence. Its
block takes the lines below up to the first one that closes it, headings and fences among them, and the
scan goes on behind that one; no line below it has the role that it has below a line of the running
text. -/
theorem inlineCode_opens [Yaml.Loader] {text : Text} {m : Option Metadata} {start : Nat}
    (hhead : head (withoutMark text) = .ok (m, start)) (s : InlineCode) {above below : List Text}
    (hlines : Text.lines (withoutMark text) = above ++ s.text :: below)
    (hstart : start ≤ above.length)
    (hopen : (above.drop start).foldl Fence.openAfter none = none) :
    OpensAt start above s.text s.fence below ∧
      ∃ d, read text = .ok d ∧
        let behind := Line.ofLines (s.fence.lastOf (above.length + 1) below) (above ++ s.text :: below)
        let block : CodeBlock :=
          ⟨s.fence, numbered (above.length + 2) (s.fence.blockOf below)⟩
        d.commands = ((codeBlocks (Line.ofLines start above) ++ block :: codeBlocks behind).filter
          (·.fence.opensScript)).flatMap Script.commands ∧
        d.sections = (Section.bounds start (above.length + 1 + below.length)
          (headings (Line.ofLines start above) ++ headings behind)).map
            (Section.ofBounds (above ++ s.text :: below) d.commands) := by
  have h : OpensAt start above s.text s.fence below :=
    opensAt_of_ofLine? hstart hopen s.ofLine?_inlineCode below
  refine ⟨h, _, read_of_head hhead, ?_, ?_⟩
  · rw [ofBody, hlines, ← h.codeBlocks_eq]
    rfl
  · have hlength : (above ++ s.text :: below).length = above.length + 1 + below.length := by
      rw [List.length_append, List.length_cons, Nat.add_assoc, Nat.add_comm 1]
    rw [ofBody, hlines, ← h.headings_eq, ← hlength]

/-- A line that begins with inline code behind two spaces. -/
def calledCode : InlineCode where
  indent := 2
  ticks := 3
  behind := "Get A.svc/B\x60\x60\x60 is called.".toList
  indent_le := by decide
  le_ticks := by decide
  head?_ne := by decide
  mem_behind := by decide

/-- A document with a heading, some line of text, another heading and a command below it. -/
def twoHeadings (l : Text) : Text :=
  "# Given\n".toList ++ l ++ "\n\n# Act\n\x60\x60\x60\nGet /a\n\x60\x60\x60\n".toList

theorem inlineCode_opens_calledCode :
    head (withoutMark (twoHeadings calledCode.text)) = .ok (none, 0) ∧
      OpensAt 0 ["# Given".toList] calledCode.text calledCode.fence
        [[], "# Act".toList, "\x60\x60\x60".toList, "Get /a".toList, "\x60\x60\x60".toList] := by
  have hhead : head (withoutMark (twoHeadings calledCode.text)) = .ok (none, 0) := rfl
  exact ⟨hhead, (inlineCode_opens hhead calledCode (by decide +kernel) (by decide) (by decide +kernel)).1⟩

/-- Below inline code the heading and the command are not found. -/
theorem commands_of_inlineCode :
    ∃ d d', read (twoHeadings calledCode.text) = .ok d ∧ read (twoHeadings "It is called.".toList) = .ok d' ∧
      d.commands = [] ∧ d.sections.map Section.heading = ["Given".toList] ∧
      d'.commands.map Command.line = [6] ∧
      d'.sections.map Section.heading = ["Given".toList, "Act".toList] :=
  ⟨ofBody none 0 (twoHeadings calledCode.text), ofBody none 0 (twoHeadings "It is called.".toList), rfl,
    rfl, by decide +kernel, by decide +kernel, by decide +kernel, by decide +kernel⟩

end Document

end ScriptAudit
