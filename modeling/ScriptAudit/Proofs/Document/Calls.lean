import ScriptAudit.Proofs.Document.Commands
import ScriptAudit.Proofs.Text.Words
import ScriptAudit.Yaml.Standard

/-!
# Server calls of sections

Commands are read from code blocks, and sections are cut at headings. Nevertheless every server call
lies in exactly one section.

* `Tiles.flatten_filter` — commands in order fall into the ranges that follow one another, none
  twice and none beside them.
* `Command.ne_nil_of_targetOf?` — a target is never empty.
* `Document.calls_partition_sections` — the calls of the sections, one section after the other, are
  the calls of the commands.
-/

namespace ScriptAudit

/-! ## Commands in ranges of lines -/

section

variable {cs : List Command} (hcs : cs.Pairwise fun c c' => c.line < c'.line)
include hcs

/-- Commands in order, cut behind a line. -/
theorem filter_append_filter {a b d : Nat} (hab : a ≤ b) (hbd : b ≤ d) :
    (cs.filter fun c => a < c.line && c.line ≤ b) ++ (cs.filter fun c => b < c.line && c.line ≤ d) =
      cs.filter fun c => a < c.line && c.line ≤ d := by
  induction cs with
  | nil => rfl
  | cons c cs ih =>
    obtain ⟨hc, hcs⟩ := List.pairwise_cons.1 hcs
    by_cases hb : b < c.line
    · -- from here on all commands stand behind the cut
      have hbehind : ∀ c' ∈ c :: cs, b < c'.line := by
        intro c' hc'
        rcases List.mem_cons.1 hc' with rfl | hc'
        · exact hb
        · exact hb.trans (hc c' hc')
      have hfront : ((c :: cs).filter fun c => a < c.line && c.line ≤ b) = [] := by
        refine List.filter_eq_nil_iff.2 fun c' hc' => ?_
        have := hbehind c' hc'
        simp
        omega
      rw [hfront, List.nil_append]
      refine List.filter_congr fun c' hc' => ?_
      have := hbehind c' hc'
      rw [decide_eq_true this, decide_eq_true (show a < c'.line by omega)]
    · have hback : (decide (b < c.line) && decide (c.line ≤ d)) = false := by simp [hb]
      have hsame : (decide (a < c.line) && decide (c.line ≤ b)) =
          (decide (a < c.line) && decide (c.line ≤ d)) := by
        rw [decide_eq_true (show c.line ≤ b by omega), decide_eq_true (show c.line ≤ d by omega)]
      simp only [List.filter_cons, hback, hsame, Bool.false_eq_true, if_false]
      split
      · rw [List.cons_append, ih hcs]
      · exact ih hcs

/-- Commands in order fall into ranges that follow one another. -/
theorem Tiles.flatten_filter {start last : Nat} {rs : List (Nat × Nat)}
    (h : Tiles last start rs) :
    rs.flatMap (fun r => cs.filter fun c => r.1 ≤ c.line && c.line ≤ r.2) =
      cs.filter fun c => start < c.line && c.line ≤ last := by
  induction rs generalizing start with
  | nil =>
    obtain rfl : start = last := h
    refine (List.filter_eq_nil_iff.2 fun c _ => ?_).symm
    simp
  | cons r rs ih =>
    obtain ⟨hfirst, hle, hrest⟩ := h
    rw [List.flatMap_cons, ih hrest, hfirst]
    exact filter_append_filter hcs (by omega) hrest.le

end

/-- A range stands above those behind it. -/
theorem Tiles.pairwise {start last : Nat} {rs : List (Nat × Nat)} (h : Tiles last start rs) :
    rs.Pairwise fun r r' => r.2 < r'.1 := by
  induction rs generalizing start with
  | nil => exact List.Pairwise.nil
  | cons r rs ih =>
    obtain ⟨-, -, hrest⟩ := h
    exact List.pairwise_cons.2 ⟨fun r' hr' => (hrest.le_of_mem r' hr').1, ih hrest⟩

/-! ## Targets -/

namespace Command

theorem mem_of_targetAmong? {ws : List Text} {w : Text} (h : targetAmong? ws = some w) : w ∈ ws := by
  fun_induction targetAmong? ws with
  | case1 => cases h
  | case2 v =>
    obtain rfl := Option.some.inj h
    exact List.mem_singleton_self v
  | case3 v ws _ _ ih => exact List.mem_cons_of_mem v (ih h)
  | case4 v ws =>
    obtain rfl := Option.some.inj h
    exact List.mem_cons_self

/-- A target is a word, which is never empty. -/
theorem ne_nil_of_targetOf? {k : Keyword} {t u : Text} (h : targetOf? k t = some u) : u ≠ [] := by
  rw [targetOf?] at h
  split at h
  · cases h
  · obtain ⟨rest, -, h⟩ := Option.bind_eq_some_iff.1 h
    split at h
    · exact Text.ne_nil_of_mem_words (mem_of_targetAmong? h)
    · cases h

theorem ne_nil_of_ofLine? {t u : Text} {n : Nat} {c : Command} (h : ofLine? t n = some c)
    (hu : c.target = some u) : u ≠ [] := by
  rw [ofLine?] at h
  obtain ⟨k, -, h⟩ := Option.bind_eq_some_iff.1 h
  obtain rfl := Option.some.inj h
  exact ne_nil_of_targetOf? hu

/-- A command that stands on a line has no empty target. -/
theorem At.ne_nil_of_target {lines : List Text} {c : Command} (h : At lines c) {u : Text}
    (hu : c.target = some u) : u ≠ [] := by
  obtain ⟨l, -, -, hl⟩ := h
  exact ne_nil_of_ofLine? hl hu

/-- The server calls among commands, in order: a keyword, a target that is set, and a line. -/
def calls (cs : List Command) : List Operation :=
  (cs.filter fun c => c.keyword.isServerCall && c.target.any (!·.isEmpty)).map fun c =>
    ⟨Text.upper c.keyword.name, c.target.getD [], c.line⟩

theorem filterMap_operation? {cs : List Command}
    (h : ∀ c ∈ cs, ∀ u, c.target = some u → u ≠ []) :
    cs.filterMap Section.operation? = calls cs := by
  induction cs with
  | nil => rfl
  | cons c cs ih =>
    have ih := ih fun c' hc' => h c' (List.mem_cons_of_mem _ hc')
    rw [List.filterMap_cons, ih, calls, calls, List.filter_cons, Section.operation?]
    cases hu : c.target with
    | none => simp
    | some u =>
      have hne := h c List.mem_cons_self u hu
      cases c.keyword.isServerCall <;> simp [hne, hu]

end Command

/-! ## Calls of sections -/

/-- How the server calls of the commands lie in the sections. -/
structure CallPartition (sections : List Section) (calls : List Operation) : Prop where
  /-- The calls of the sections, one section after the other, are those of the commands. -/
  flatMap_operations : sections.flatMap Section.operations = calls
  /-- A call stands on a line of its section. -/
  line_inside : ∀ s ∈ sections, ∀ o ∈ s.operations, s.first ≤ o.line ∧ o.line ≤ s.last
  /-- A call belongs to one section. -/
  existsUnique_section : ∀ o ∈ calls, ∃! s, s ∈ sections ∧ o ∈ s.operations

namespace Section

variable {lines : List Text} {cs : List Command}

theorem line_of_operation? {c : Command} {o : Operation} (h : operation? c = some o) :
    o.line = c.line := by
  rw [operation?] at h
  split at h
  · obtain ⟨u, -, rfl⟩ := Option.map_eq_some_iff.1 h
    rfl
  · cases h

theorem line_inside {bs : List Bounds} : ∀ s ∈ bs.map (ofBounds lines cs), ∀ o ∈ s.operations,
    s.first ≤ o.line ∧ o.line ≤ s.last := by
  intro s hs o ho
  obtain ⟨b, -, rfl⟩ := List.mem_map.1 hs
  obtain ⟨c, hc, ho⟩ := List.mem_filterMap.1 ho
  have hline : b.first ≤ c.line ∧ c.line ≤ b.last := by simpa using (List.mem_filter.1 hc).2
  rw [line_of_operation? ho]
  exact hline

/-- Commands in order, all of them among the lines that the bounds cut into ranges. -/
theorem flatMap_operations {start last : Nat} {bs : List Bounds}
    (hbs : Tiles last start (bs.map Bounds.range))
    (hcs : cs.Pairwise fun c c' => c.line < c'.line)
    (hin : ∀ c ∈ cs, start < c.line ∧ c.line ≤ last) :
    (bs.map (ofBounds lines cs)).flatMap operations = cs.filterMap operation? := by
  have hall : (cs.filter fun c => start < c.line && c.line ≤ last) = cs :=
    List.filter_eq_self.2 fun c hc => by simp [hin c hc]
  have htiles := hbs.flatten_filter hcs
  rw [hall, List.flatMap_map] at htiles
  rw [← congrArg (List.filterMap operation?) htiles, List.filterMap_flatMap, List.flatMap_map]
  rfl

/-- Sections whose ranges follow one another share no line. -/
theorem eq_of_line_inside {start last : Nat} {sections : List Section}
    (h : Tiles last start (sections.map range)) {s s' : Section} (hs : s ∈ sections)
    (hs' : s' ∈ sections) {n : Nat} (hn : s.first ≤ n ∧ n ≤ s.last)
    (hn' : s'.first ≤ n ∧ n ≤ s'.last) : s = s' := by
  have hapart : sections.Pairwise fun s s' => s.last < s'.first := List.pairwise_map.1 h.pairwise
  refine List.Pairwise.forall_of_forall_of_flip
    (R := fun s s' => (s.first ≤ n ∧ n ≤ s.last) → (s'.first ≤ n ∧ n ≤ s'.last) → s = s')
    (fun _ _ _ _ => rfl) (hapart.imp fun hlt hn hn' => ?_) (hapart.imp fun hlt hn hn' => ?_)
    hs hs' hn hn' <;> omega

/-- The calls of commands in order, in sections whose ranges hold the lines of all of them. -/
theorem callPartition_of_tiles {start last : Nat} {bs : List Bounds}
    (hbs : Tiles last start (bs.map Bounds.range))
    (hcs : cs.Pairwise fun c c' => c.line < c'.line)
    (hin : ∀ c ∈ cs, start < c.line ∧ c.line ≤ last) :
    CallPartition (bs.map (ofBounds lines cs)) (cs.filterMap operation?) where
  flatMap_operations := flatMap_operations hbs hcs hin
  line_inside := line_inside
  existsUnique_section := by
    intro o ho
    have hcalls : (bs.map (ofBounds lines cs)).flatMap operations = cs.filterMap operation? :=
      flatMap_operations hbs hcs hin
    rw [← hcalls, List.mem_flatMap] at ho
    obtain ⟨s, hs, ho⟩ := ho
    have hranges : Tiles last start ((bs.map (ofBounds lines cs)).map range) := by
      rw [List.map_map]
      exact hbs
    exact ⟨s, ⟨hs, ho⟩, fun s' hs' => eq_of_line_inside hranges hs'.1 hs
      (line_inside s' hs'.1 o hs'.2) (line_inside s hs o ho)⟩

end Section

namespace Document

/-- **Every server call belongs to one section.** In every document that is read, the calls of the
sections, one section after the other, are the calls of the commands, and each stands on a line of
its section. -/
theorem calls_partition_sections [Yaml.Loader] {text : Text} {d : Document}
    (h : read text = .ok d) :
    CallPartition d.sections (Command.calls d.commands) := by
  obtain ⟨m, start, hhead, hcover⟩ := commands_cover_scripts h
  obtain ⟨m', start', hhead', rfl⟩ := read_eq_ok h
  obtain ⟨rfl, rfl⟩ := Prod.mk.inj (Except.ok.inj (hhead.symm.trans hhead'))
  have htargets : ∀ c ∈ (ofBody m start (withoutMark text)).commands, ∀ u, c.target = some u →
      u ≠ [] := fun c hc u hu => (hcover.located c hc).1.ne_nil_of_target hu
  have hinside : ∀ c ∈ (ofBody m start (withoutMark text)).commands,
      start < c.line ∧ c.line ≤ (Text.lines (withoutMark text)).length := by
    intro c hc
    obtain ⟨-, f, l, hcontent, -⟩ := hcover.located c hc
    have hlt := hcontent.start_lt
    obtain ⟨hlength, -⟩ := List.getElem?_eq_some_iff.1 hcontent.getElem?_eq
    omega
  rw [← Command.filterMap_operation? htargets]
  exact Section.callPartition_of_tiles
    (Section.tiles_bounds (isChain_headings (head_le_length_lines hhead)))
    hcover.increasing hinside

/-- A document of two sections. A number sign stands inside of a fence, a call has no target, and
the second block is not closed. -/
def twoSections : Text :=
  "A\n===\n```\nget /a\n# no\nPost\nDelete CatchError /b\n```\n".toList ++
    "# B\n~~~ tar\nCall x\nPatch /c\n".toList

/-- The calls of the two sections. -/
theorem calls_partition_twoSections :
    ∃ d, read twoSections = .ok d ∧
      d.sections.map (fun s => (s.first, s.operations)) =
        [(1, [⟨"GET", "/a", 4⟩, ⟨"DELETE", "/b", 7⟩]), (9, [⟨"PATCH", "/c", 12⟩])] ∧
      CallPartition d.sections (Command.calls d.commands) := by
  have h : read twoSections = .ok (ofBody none 0 twoSections) := rfl
  exact ⟨_, h, by decide +kernel, calls_partition_sections h⟩

end Document

end ScriptAudit
