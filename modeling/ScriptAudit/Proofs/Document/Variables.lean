import Mathlib.Data.List.Forall2
import Mathlib.Data.List.Sort
import ScriptAudit.Proofs.Document.Commands
import ScriptAudit.Proofs.Document.Identifier
import ScriptAudit.Proofs.Document.Pattern
import ScriptAudit.Yaml.Standard

/-!
# Variables, commands and patterns of the same lines

Commands, variables and patterns are read from a document one after the other: commands from the lines
of code blocks without their margins, variables from whole lines of the same blocks, patterns from all
lines. Here their tables are shown to agree (`Document.variables_agree`).

* `scriptLines` — the lines of blocks that hold commands, in order.
* `filter_line_flatMap` — what is read line by line is found again by its line.
* `Pattern.IsUsage` — whether a pattern uses a variable.
-/

namespace ScriptAudit

/-! ## The lines of blocks that hold commands -/

/-- The lines of blocks that hold commands, in a body that begins behind line `start`. -/
def scriptLines (start : Nat) (lines : List Text) : List (Nat × Text) :=
  ((contentsFrom none (start + 1) (lines.drop start)).filter (·.1.opensScript)).map Prod.snd

variable {start : Nat} {lines : List Text}

theorem mem_scriptLines {n : Nat} {l : Text} :
    (n, l) ∈ scriptLines start lines ↔ ∃ f, Content start lines f n l ∧ f.opensScript = true := by
  simp only [scriptLines, List.mem_map, List.mem_filter, content_iff_mem_contentsFrom]
  constructor
  · rintro ⟨⟨f, p⟩, h, rfl⟩
    exact ⟨f, h⟩
  · rintro ⟨f, h⟩
    exact ⟨(f, n, l), h, rfl⟩

theorem pairwise_scriptLines (start : Nat) (lines : List Text) :
    (scriptLines start lines).Pairwise fun p p' => p.1 < p'.1 :=
  List.pairwise_map.2 ((pairwise_contentsFrom none (start + 1) (lines.drop start)).filter _)

/-- The lines of the blocks one after the other. -/
theorem flatMap_lines_scriptBlocks (start : Nat) (lines : List Text) :
    (scriptBlocks (Line.ofLines start lines)).flatMap CodeBlock.lines = scriptLines start lines := by
  rw [scriptLines, ← flatMap_contents_codeBlocks, scriptBlocks]
  induction codeBlocks (Line.ofLines start lines) with
  | nil => rfl
  | cons b bs ih =>
    have hlines : b.contents.map Prod.snd = b.lines := by simp [CodeBlock.contents]
    have hfence : ∀ e ∈ b.contents, e.1 = b.fence := by
      rintro e he
      obtain ⟨p, -, rfl⟩ := List.mem_map.1 he
      rfl
    rw [List.flatMap_cons, List.filter_append, List.map_append, ← ih]
    cases hscript : b.fence.opensScript with
    | true =>
      have hall : b.contents.filter (·.1.opensScript) = b.contents :=
        List.filter_eq_self.2 fun e he => by rw [hfence e he, hscript]
      rw [List.filter_cons, if_pos hscript, List.flatMap_cons, hall, hlines]
    | false =>
      have hnone : b.contents.filter (·.1.opensScript) = [] :=
        List.filter_eq_nil_iff.2 fun e he => by rw [hfence e he, hscript]; exact Bool.false_ne_true
      rw [List.filter_cons, if_neg (by simp [hscript]), hnone]
      rfl

/-! ## Tables that are read line by line -/

/-- What is read from lines with increasing numbers is found again by the number of its line. -/
theorem filter_line_flatMap {α β : Type} {ls : List (Nat × α)} {f : Nat × α → List β}
    {number : β → Nat} (hls : ls.Pairwise fun p p' => p.1 < p'.1)
    (hf : ∀ p, ∀ x ∈ f p, number x = p.1) {p : Nat × α} (hp : p ∈ ls) :
    (ls.flatMap f).filter (fun x => number x = p.1) = f p := by
  obtain ⟨front, back, rfl⟩ := List.append_of_mem hp
  have hother {qs : List (Nat × α)} (hqs : ∀ q ∈ qs, q.1 ≠ p.1) :
      (qs.flatMap f).filter (fun x => number x = p.1) = [] := by
    refine List.filter_eq_nil_iff.2 fun x hx => ?_
    obtain ⟨q, hq, hx⟩ := List.mem_flatMap.1 hx
    simpa [hf q x hx] using hqs q hq
  have hself : (f p).filter (fun x => number x = p.1) = f p :=
    List.filter_eq_self.2 fun x hx => by simpa using hf p x hx
  obtain ⟨-, hback, hfront⟩ := List.pairwise_append.1 hls
  rw [List.flatMap_append, List.flatMap_cons, List.filter_append, List.filter_append, hself,
    hother fun q hq => (hfront q hq p List.mem_cons_self).ne,
    hother fun q hq => (List.rel_of_pairwise_cons hback hq).ne', List.nil_append, List.append_nil]

/-- What is read line by line comes in the order of the lines. -/
theorem pairwise_line_flatMap {α β : Type} {ls : List (Nat × α)} {f : Nat × α → List β}
    {number : β → Nat} (hls : ls.Pairwise fun p p' => p.1 < p'.1)
    (hf : ∀ p, ∀ x ∈ f p, number x = p.1) :
    (ls.flatMap f).Pairwise fun x y => number x ≤ number y := by
  refine List.pairwise_flatMap.2 ⟨fun p _ => ?_, hls.imp fun hlt x hx y hy => ?_⟩
  · exact List.pairwise_of_forall_mem_list fun x hx y hy => by rw [hf p x hx, hf p y hy]
  · rw [hf _ x hx, hf _ y hy]
    exact hlt.le

theorem Variable.line_of_mem_ofLine {n : Nat} {l : Text} {u : Variable} (h : u ∈ ofLine n l) :
    u.line = n := by
  rw [ofLine] at h
  rcases List.mem_append.1 h with h | h <;> obtain ⟨-, -, rfl⟩ := List.mem_map.1 h <;> rfl

theorem Variable.ofBlocks_eq (start : Nat) (lines : List Text) :
    ofBlocks (scriptBlocks (Line.ofLines start lines)) =
      (scriptLines start lines).flatMap fun p => ofLine p.1 p.2 := by
  rw [ofBlocks, ← flatMap_lines_scriptBlocks, List.flatMap_assoc]

theorem Pattern.ofLines_eq (lines : List Text) :
    ofLines lines = (numbered 1 lines).flatMap fun p => ofLine p.1 p.2 := by
  rw [ofLines]
  generalize 1 = k
  induction lines generalizing k with
  | nil => rfl
  | cons t lines ih => rw [mapIdx_ofLine_cons, ih, numbered, List.flatMap_cons]

theorem pairwise_numbered (n : Nat) (ls : List Text) :
    (numbered n ls).Pairwise fun p p' => p.1 < p'.1 := by
  induction ls generalizing n with
  | nil => exact List.Pairwise.nil
  | cons l ls ih =>
    refine List.pairwise_cons.2 ⟨fun p hp => ?_, ih (n + 1)⟩
    obtain ⟨i, hi, -⟩ := mem_numbered.1 (show (p.1, p.2) ∈ numbered (n + 1) ls from hp)
    omega

/-! ## Patterns that use variables -/

/-- Whether a line of a document stands in a block that holds commands. -/
def IsScriptLine (start : Nat) (lines : List Text) (n : Nat) : Prop :=
  ∃ f l, Content start lines f n l ∧ f.opensScript = true

theorem isScriptLine_iff {n : Nat} :
    IsScriptLine start lines n ↔ n ∈ (scriptLines start lines).map Prod.fst := by
  rw [IsScriptLine, exists_comm, List.mem_map]
  constructor
  · rintro ⟨l, h⟩
    exact ⟨(n, l), mem_scriptLines.2 h, rfl⟩
  · rintro ⟨⟨n, l⟩, h, rfl⟩
    exact ⟨l, mem_scriptLines.1 h⟩

instance : DecidablePred (IsScriptLine start lines) :=
  fun _ => decidable_of_iff _ isScriptLine_iff.symm

/-- The lines of blocks that hold commands are some of the lines of the document. -/
theorem filter_isScriptLine (start : Nat) (lines : List Text) :
    (numbered 1 lines).filter (fun p => IsScriptLine start lines p.1) = scriptLines start lines := by
  refine List.Pairwise.eq_of_mem_iff ((pairwise_numbered 1 lines).filter _)
    (pairwise_scriptLines start lines) fun p => ?_
  obtain ⟨n, l⟩ := p
  rw [List.mem_filter, decide_eq_true_eq, mem_numbered, mem_scriptLines]
  constructor
  · rintro ⟨⟨i, rfl, hl⟩, f, l', hcontent, hf⟩
    have hl' := hcontent.getElem?_eq
    rw [Nat.add_sub_cancel_left, hl] at hl'
    obtain rfl := Option.some.inj hl'
    exact ⟨f, hcontent, hf⟩
  · rintro ⟨f, hcontent, hf⟩
    have := hcontent.start_lt
    exact ⟨⟨n - 1, by omega, hcontent.getElem?_eq⟩, f, l, hcontent, hf⟩

/-- Whether a pattern uses a variable: it is closed, it stands in a block that holds commands, and
its identifier begins with a name. -/
structure Pattern.IsUsage (start : Nat) (lines : List Text) (p : Pattern) : Prop where
  closed : p.problem ≠ some .unclosed
  isScriptLine : IsScriptLine start lines p.line
  exists_uses : ∃ name, Identifier.Uses name (Text.trim p.identifier)

instance : DecidablePred (Pattern.IsUsage start lines) := fun p =>
  decidable_of_iff (p.problem ≠ some .unclosed ∧ IsScriptLine start lines p.line ∧
      (Identifier.usedName? p.identifier).isSome = true)
    ⟨fun ⟨hclosed, hscript, hname⟩ => ⟨hclosed, hscript, Identifier.isSome_usedName?_iff.1 hname⟩,
      fun h => ⟨h.closed, h.isScriptLine, Identifier.isSome_usedName?_iff.2 h.exists_uses⟩⟩

/-- A usage of a variable, and the pattern that it was read from. -/
structure Variable.UsedBy (u : Variable) (p : Pattern) : Prop where
  uses : Identifier.Uses u.name (Text.trim p.identifier)
  line_eq : u.line = p.line

namespace Variable

/-- The usages of a line are read from its patterns that use variables. -/
theorem forall₂_usages {n : Nat} (hn : IsScriptLine start lines n) (l : Text) :
    List.Forall₂ UsedBy ((ofLine n l).filter (!·.isDefinition))
      ((Pattern.ofLine n l).filter (Pattern.IsUsage start lines ·)) := by
  have husages : (ofLine n l).filter (!·.isDefinition) =
      (usages n l).map fun name => ⟨name, n, false, (Text.trim l).take contextLength⟩ := by
    simp [ofLine, List.filter_map, Function.comp_def]
  rw [husages, List.forall₂_map_left_iff, usages]
  have hline : ∀ p ∈ Pattern.ofLine n l, p.line = n := fun p => Pattern.line_of_mem_ofLine
  generalize Pattern.ofLine n l = ps at hline
  induction ps with
  | nil => exact .nil
  | cons p ps ih =>
    obtain ⟨rfl, hline⟩ := List.forall_mem_cons.1 hline
    have ih := ih hline
    by_cases hp : p.IsUsage start lines
    · obtain ⟨name, huses⟩ := hp.exists_uses
      have hname := Identifier.usedName?_eq_some_iff.2 huses
      rw [List.filter_cons, if_pos (by simpa using hp), List.filterMap_cons, if_neg hp.closed, hname]
      exact .cons ⟨huses, rfl⟩ ih
    · rw [List.filter_cons, if_neg (by simpa using hp), List.filterMap_cons]
      -- an identifier of an open pattern is not looked at, another one does not begin with a name
      by_cases hclosed : p.problem = some .unclosed
      · rw [if_pos hclosed]
        exact ih
      · have hnone : Identifier.usedName? p.identifier = none :=
          Option.eq_none_iff_forall_ne_some.2 fun name hname =>
            hp ⟨hclosed, hn, name, Identifier.usedName?_eq_some_iff.1 hname⟩
        rw [if_neg hclosed, hnone]
        exact ih

/-- The first variable that a line defines is the one that is found first in it. -/
theorem map_name_find?_ofLine (n : Nat) (l : Text) :
    ((ofLine n l).find? (·.isDefinition)).map name = (Text.wordAfter "Into").first? l := by
  rw [Recogniser.first?, Recogniser.search_eq_head?_collect]
  show _ = (definitions l).head?
  rw [ofLine, List.find?_append]
  cases definitions l with
  | nil => simp
  | cons name names => rfl

end Variable

/-- Patterns that use variables stand on lines of blocks that hold commands. -/
theorem Pattern.filter_isUsage_ofLines (start : Nat) (lines : List Text) :
    (ofLines lines).filter (IsUsage start lines ·) =
      (scriptLines start lines).flatMap fun p =>
        (ofLine p.1 p.2).filter (IsUsage start lines ·) := by
  rw [ofLines_eq, ← filter_isScriptLine, List.filter_flatMap]
  induction numbered 1 lines with
  | nil => rfl
  | cons p ps ih =>
    rw [List.flatMap_cons, ih]
    by_cases hp : IsScriptLine start lines p.1
    · rw [List.filter_cons, if_pos (by simpa using hp), List.flatMap_cons]
    · have hnone : (ofLine p.1 p.2).filter (IsUsage start lines ·) = [] := by
        refine List.filter_eq_nil_iff.2 fun q hq husage => hp ?_
        rw [← line_of_mem_ofLine hq]
        exact (of_decide_eq_true husage).isScriptLine
      rw [List.filter_cons, if_neg (by simpa using hp), hnone, List.nil_append]

/-! ## Documents -/

/-- How the variables of a document lie, whose body begins behind line `start`. -/
structure VariableTable (start : Nat) (lines : List Text) (d : Document) : Prop where
  /-- The variable of a command is the first one that its line defines. -/
  into_eq : ∀ c ∈ d.commands,
    (d.usages.find? fun u => u.line = c.line ∧ u.isDefinition = true).map Variable.name = c.into
  /-- The usages are the patterns that use variables, in the same order. -/
  usages : List.Forall₂ Variable.UsedBy (d.usages.filter (!·.isDefinition))
    (d.patterns.filter (Pattern.IsUsage start lines ·))
  /-- Variables come in the order of their lines. -/
  increasing : d.usages.Pairwise fun u u' => u.line ≤ u'.line

theorem Command.into_of_ofLine? {t : Text} {n : Nat} {c : Command} (h : ofLine? t n = some c) :
    c.into = (Text.wordAfter "Into").first? t := by
  rw [ofLine?] at h
  obtain ⟨k, -, h⟩ := Option.bind_eq_some_iff.1 h
  obtain rfl := Option.some.inj h
  rfl

namespace Document

/-- **The tables of a document agree.** In every document that is read, the variable of a command is
the first one that its line defines, the usages of variables are in order those of the closed patterns
in blocks that hold commands whose identifiers begin with names, and the lines of the variables do not
decrease. -/
theorem variables_agree [Yaml.Loader] {text : Text} {d : Document} (h : read text = .ok d) :
    ∃ m start, head (withoutMark text) = .ok (m, start) ∧
      VariableTable start (Text.lines (withoutMark text)) d := by
  obtain ⟨m, start, hhead, hcover⟩ := commands_cover_scripts h
  refine ⟨m, start, hhead, ?_⟩
  obtain ⟨m', start', hhead', rfl⟩ := read_eq_ok h
  obtain ⟨rfl, rfl⟩ : m' = m ∧ start' = start := by simpa [hhead] using hhead'.symm
  have husages : (ofBody m' start' (withoutMark text)).usages =
      (scriptLines start' (Text.lines (withoutMark text))).flatMap fun p =>
        Variable.ofLine p.1 p.2 :=
    Variable.ofBlocks_eq start' (Text.lines (withoutMark text))
  have hincreasing := pairwise_scriptLines start' (Text.lines (withoutMark text))
  have hline : ∀ p : Nat × Text, ∀ u ∈ Variable.ofLine p.1 p.2, u.line = p.1 :=
    fun p u => Variable.line_of_mem_ofLine
  refine ⟨fun c hc => ?_, ?_, ?_⟩
  · obtain ⟨⟨l', hl', -, hread⟩, f, l, hcontent, hf, -⟩ := hcover.located c hc
    obtain rfl : l' = l := Option.some.inj (hl'.symm.trans hcontent.getElem?_eq)
    have hinto : c.into = (Text.wordAfter "Into").first? (Text.trim l') :=
      Command.into_of_ofLine? (c := { c with body := none }) hread
    have hfound := filter_line_flatMap hincreasing hline (mem_scriptLines.2 ⟨f, hcontent, hf⟩)
    have hfirst : ((Variable.ofLine c.line l').find? (·.isDefinition)).map Variable.name = c.into := by
      rw [Variable.map_name_find?_ofLine, hinto, Text.first?_wordAfter_trim (by decide) (by decide)]
    rw [← hfirst, ← hfound, List.find?_filter, husages]
    simp only [decide_eq_true_eq]
  · rw [husages, List.filter_flatMap]
    show List.Forall₂ _ _ ((Pattern.ofLines _).filter _)
    rw [Pattern.filter_isUsage_ofLines, List.flatMap_def, List.flatMap_def]
    refine List.rel_flatten (List.forall₂_map_left_iff.2 (List.forall₂_map_right_iff.2 ?_))
    refine List.forall₂_same.2 fun p hp => Variable.forall₂_usages ?_ p.2
    exact isScriptLine_iff.2 (List.mem_map_of_mem hp)
  · rw [husages]
    exact pairwise_line_flatMap hincreasing hline

/-- Behind a byte order mark, two variables after a command, and patterns of which only one uses a
variable. -/
def twoDefinitions : Text :=
  "\uFEFF```\n Get /a Into b INTO c \n\x7b$b.d(0)\x7d\x7b#b c\x7d\x7b%b\n```\n\x7b$b\x7d\n".toList

theorem variables_agree_twoDefinitions :
    ∃ d, read twoDefinitions = .ok d ∧
      d.commands.map (fun c => (c.line, c.into)) = [(2, some ['b'])] ∧
      d.usages.map (fun u => (u.line, u.name, u.isDefinition)) =
        [(2, ['b'], true), (2, ['c'], true), (3, ['b'], false)] ∧
      ∃ m start, head (withoutMark twoDefinitions) = .ok (m, start) ∧
        VariableTable start (Text.lines (withoutMark twoDefinitions)) d := by
  have h : read twoDefinitions = .ok (ofBody none 0 (withoutMark twoDefinitions)) := rfl
  exact ⟨_, h, by decide +kernel, by decide +kernel, variables_agree h⟩

end Document

end ScriptAudit
