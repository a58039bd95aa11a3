import ScriptAudit.Proofs.Document.Sections
import ScriptAudit.Proofs.Fault
import ScriptAudit.Proofs.Text.LineEnds
import ScriptAudit.Yaml.Standard

/-!
# Documents with carriage returns

A text whose lines end in line feeds is read like the same text with a carriage return in front of
each of them.

* `Frontmatter.boundary?` — the number of lines before the body, where there is a head.
* `Frontmatter.Remains` — what two forms of a text have left behind a delimiter: blanks that belong
  to it take in the carriage return before the line feed at which it ends.
* `Frontmatter.boundary?_withReturns` — the body begins on the same line in both forms.
* `Document.same_reading_withReturns` — sections, commands, variables and patterns are the same.
-/

namespace ScriptAudit

open Text (withReturns)

theorem rel_map {α β γ δ : Type} {r : α → β → Prop} {s : γ → δ → Prop} {f : α → γ} {g : β → δ}
    {a : Option α} {b : Option β} (h : Option.Rel r a b) (hfg : ∀ x y, r x y → s (f x) (g y)) :
    Option.Rel s (a.map f) (b.map g) := by
  cases h with
  | some h => exact .some (hfg _ _ h)
  | none => exact .none

theorem rel_bind {α β γ δ : Type} {r : α → β → Prop} {s : γ → δ → Prop} {f : α → Option γ}
    {g : β → Option δ} {a : Option α} {b : Option β} (h : Option.Rel r a b)
    (hfg : ∀ x y, r x y → Option.Rel s (f x) (g y)) : Option.Rel s (a.bind f) (b.bind g) := by
  cases h with
  | some h => exact hfg _ _ h
  | none => exact .none

/-! ## Heads -/

namespace Frontmatter

open Text (trimRight)

/-- The number of lines before the body of a text that has a head. -/
def boundary? (t : Text) : Option Nat := (split? t).map fun f => f.bodyStart t

/-- What is left of a text behind a delimiter, and what is left of the text with carriage returns.
A delimiter ends with the text, or in front of a line feed. -/
inductive Remains : Text → Text → Prop
  /-- Nothing is left of either. -/
  | nothing : Remains [] []
  /-- Both go on with a line feed, the carriage return in front of it being used up. -/
  | feed (s : Text) : Remains ('\n' :: s) ('\n' :: withReturns s)

/-- Of some blanks those before the last line feed belong to a delimiter. -/
theorem delimiterBlanks?_append (blanks : Text) {rest : Text} (h : '\n' ∉ rest) :
    delimiterBlanks? (blanks ++ '\n' :: rest) false = some blanks := by
  have hrest : '\n' ∉ rest.reverse := fun hmem => h (List.mem_reverse.1 hmem)
  have hdrop : (blanks ++ '\n' :: rest).reverse.dropWhile (· ≠ '\n') = '\n' :: blanks.reverse := by
    rw [List.reverse_append, List.reverse_cons, List.append_assoc]
    exact Text.dropWhile_ne_append_cons hrest _
  rw [delimiterBlanks?, if_neg Bool.false_ne_true, if_pos (by simp), hdrop]
  simp

/-- A text with a line feed, cut at the last one. -/
theorem exists_last_newline {t : Text} (h : '\n' ∈ t) : ∃ u v, t = u ++ '\n' :: v ∧ '\n' ∉ v := by
  obtain ⟨v, u, hsplit, hv⟩ := List.eq_append_cons_of_mem (List.mem_reverse.2 h)
  refine ⟨u.reverse, v.reverse, ?_, fun hmem => hv (List.mem_reverse.1 hmem)⟩
  simpa using congrArg List.reverse hsplit

/-- Blanks behind dashes, in front of the rest of the text. -/
theorem rel_delimiterBlanks? (blanks tail : Text) :
    Option.Rel (fun b b' => Remains ((blanks ++ tail).drop b.length)
        ((withReturns blanks ++ withReturns tail).drop b'.length))
      (delimiterBlanks? blanks tail.isEmpty)
      (delimiterBlanks? (withReturns blanks) tail.isEmpty) := by
  cases tail with
  | nil =>
    refine .some ?_
    simpa using Remains.nothing
  | cons c tail =>
    by_cases h : '\n' ∈ blanks
    · obtain ⟨u, v, rfl, hv⟩ := exists_last_newline h
      have hreturns : withReturns (u ++ '\n' :: v) = (withReturns u ++ ['\r']) ++ '\n' :: v := by
        rw [Text.withReturns_append, Text.withReturns_newline, Text.withReturns_of_notMem hv]
        simp
      rw [hreturns, List.isEmpty_cons, delimiterBlanks?_append u hv, delimiterBlanks?_append _ hv]
      refine .some ?_
      rw [List.append_assoc, List.drop_left, List.append_assoc, List.drop_left]
      have hrest : '\n' :: v ++ withReturns (c :: tail) = '\n' :: withReturns (v ++ c :: tail) := by
        rw [Text.withReturns_append, Text.withReturns_of_notMem hv, List.cons_append]
      rw [hrest]
      exact .feed _
    · have hnone : delimiterBlanks? blanks false = none := by simp [delimiterBlanks?, h]
      rw [Text.withReturns_of_notMem h, List.isEmpty_cons, hnone]
      exact .none

/-- A delimiter, taken apart at the ends of its dashes and its blanks. -/
theorem delimiter?_eq (t : Text) :
    delimiter? t =
      if (t.takeWhile (· == '-')).length < 3 then none
      else
        (delimiterBlanks? ((t.dropWhile (· == '-')).takeWhile isBlank)
          ((t.dropWhile (· == '-')).dropWhile isBlank).isEmpty).map fun b =>
            (t.takeWhile (· == '-')).length + b.length := by
  have hend (u : Text) : ((u.takeWhile isBlank).length == u.length) =
      (u.dropWhile isBlank).isEmpty := by
    have hlength := Text.length_takeWhile_add isBlank u
    rw [Bool.eq_iff_iff, beq_iff_eq, List.isEmpty_iff, ← List.length_eq_zero_iff]
    omega
  rw [delimiter?, Text.drop_length_takeWhile]
  simp only [hend]

/-- A delimiter in both forms. -/
theorem rel_delimiter? (t : Text) :
    Option.Rel (fun n n' => Remains (t.drop n) ((withReturns t).drop n'))
      (delimiter? t) (delimiter? (withReturns t)) := by
  let dashes := t.takeWhile (· == '-')
  let rest := t.dropWhile (· == '-')
  let blanks := rest.takeWhile isBlank
  let tail := rest.dropWhile isBlank
  have hrest : rest = blanks ++ tail := List.takeWhile_append_dropWhile.symm
  have hdashes : (withReturns t).takeWhile (· == '-') = dashes := by
    rw [Text.takeWhile_withReturns (p := (· == '-')) rfl, Text.withReturns_of_notMem]
    exact fun hmem => absurd (List.mem_takeWhile_imp hmem) (by decide)
  have hrest' : (withReturns t).dropWhile (· == '-') = withReturns rest :=
    Text.dropWhile_withReturns (p := (· == '-')) rfl t
  have hdrop (k : Nat) : t.drop (dashes.length + k) = (blanks ++ tail).drop k := by
    rw [← List.drop_drop, Text.drop_length_takeWhile, ← hrest]
  have hdrop' (k : Nat) : (withReturns t).drop (dashes.length + k) =
      (withReturns blanks ++ withReturns tail).drop k := by
    rw [← List.drop_drop, ← hdashes, Text.drop_length_takeWhile, hrest', hrest,
      Text.withReturns_append]
  rw [delimiter?_eq, delimiter?_eq, hdashes, hrest', Text.takeWhile_withReturns (p := isBlank) rfl,
    Text.dropWhile_withReturns (p := isBlank) rfl, Text.isEmpty_withReturns]
  split
  · exact .none
  · refine rel_map (rel_delimiterBlanks? blanks tail) fun b b' hremains => ?_
    rw [hdrop, hdrop']
    exact hremains

/-- What stands behind the first delimiter that begins a line. -/
theorem rel_cut? {t : Text} (lineStart : Bool) :
    Option.Rel (fun p p' => Remains p.2 p'.2) (cut? lineStart t)
      (cut? lineStart (withReturns t)) := by
  induction t generalizing lineStart with
  | nil => exact .none
  | cons c t ih =>
    by_cases hc : c = '\n'
    · -- neither the line feed nor the carriage return begins a delimiter
      subst hc
      have hnone (u : Text) (b : Bool) : (if b then delimiter? ('\n' :: u) else none) = none := by
        cases b <;> simp [delimiter?]
      have hnone' (u : Text) (b : Bool) : (if b then delimiter? ('\r' :: u) else none) = none := by
        cases b <;> simp [delimiter?]
      rw [Text.withReturns_newline, cut?, cut?, cut?, hnone, hnone, hnone']
      simp only [Option.map_map]
      exact rel_map (ih true) fun p p' h => h
    · have hdelimiter := rel_delimiter? (c :: t)
      rw [Text.withReturns_cons hc] at hdelimiter ⊢
      rw [cut?, cut?]
      cases lineStart with
      | false => exact rel_map (ih _) fun p p' h => h
      | true =>
        rw [if_pos rfl, if_pos rfl]
        generalize delimiter? (c :: t) = n, delimiter? (c :: withReturns t) = n' at hdelimiter
        cases hdelimiter with
        | none => exact rel_map (ih _) fun p p' h => h
        | some h => exact .some h

theorem rel_cut?_of_remains {rest rest' : Text} (h : Remains rest rest') :
    Option.Rel (fun p p' => Remains p.2 p'.2) (cut? false rest) (cut? false rest') := by
  cases h with
  | nothing => exact .none
  | feed s => exact rel_map (rel_cut? true) fun p p' h => h

/-- Heads in both forms. -/
theorem rel_split? (t : Text) :
    Option.Rel (fun f f' => Remains f.body f'.body) (split? t) (split? (withReturns t)) :=
  rel_bind (rel_delimiter? t) fun _ _ hrest =>
    rel_bind (rel_cut?_of_remains hrest) fun _ _ hbody => .some hbody

/-! ## Beginnings of bodies -/

/-- A head has as many line feeds in both forms. -/
theorem bodyStart_withReturns {front body body' : Text} (h : Remains body body')
    (block block' : Text) : bodyStart (withReturns (front ++ body)) ⟨block', body'⟩ =
      bodyStart (front ++ body) ⟨block, body⟩ := by
  have htake (u v : Text) : (u ++ v).take ((u ++ v).length - v.length) = u := by
    rw [List.length_append, Nat.add_sub_cancel, List.take_left]
  obtain ⟨margin, hmargin, hsplit⟩ : ∃ margin, (∀ c ∈ margin, isBlank c = true) ∧
      withReturns (front ++ body) = (withReturns front ++ margin) ++ body' := by
    cases h with
    | nothing => exact ⟨[], by simp, by simp⟩
    | feed s => exact ⟨['\r'], by simp [isBlank], by simp [Text.withReturns_append]⟩
  rw [bodyStart, bodyStart, hsplit, htake, htake, Text.trimRight_append_of_forall hmargin,
    Text.trimRight_withReturns, Text.count_newline_withReturns]

/-- **The body begins on the same line** in both forms of a text, and both have a head or neither. -/
theorem boundary?_withReturns (t : Text) : boundary? (withReturns t) = boundary? t := by
  have hrel := rel_split? t
  rw [boundary?, boundary?]
  generalize hf : split? t = found, split? (withReturns t) = found' at hrel
  cases hrel with
  | none => rfl
  | @some f f' hbody =>
    obtain ⟨before, dashes, margin, hcut⟩ := exists_cut hf
    have ht : t = (before ++ '\n' :: (dashes ++ margin)) ++ f.body := by simpa using hcut.text_eq
    rw [Option.map_some, Option.map_some, ht]
    exact congrArg some (bodyStart_withReturns hbody f.block f'.block)

end Frontmatter

/-! ## Documents -/

namespace Document

theorem withoutMark_withReturns (t : Text) :
    withoutMark (withReturns t) = withReturns (withoutMark t) := by
  cases t with
  | nil => rfl
  | cons c t =>
    by_cases hfeed : c = '\n'
    · subst hfeed
      rfl
    · rw [Text.withReturns_cons hfeed]
      by_cases hmark : c = '\ufeff'
      · subst hmark
        rfl
      · rw [withoutMark_of_ne hmark, withoutMark_of_ne hmark, Text.withReturns_cons hfeed]

/-- The lines before the body of a document that is read. -/
theorem start_of_head [Yaml.Loader] {t : Text} {m : Option Metadata} {start : Nat}
    (h : head t = .ok (m, start)) :
    start = (Frontmatter.boundary? t).getD 0 := by
  rw [head] at h
  rw [Frontmatter.boundary?]
  split at h
  · next hf =>
    obtain ⟨-, rfl⟩ := Prod.mk.inj (Except.ok.inj h)
    rw [hf]
    rfl
  · next f hf =>
    obtain ⟨m', -, heq⟩ := map_eq_ok_iff.1 h
    obtain ⟨-, rfl⟩ := Prod.mk.inj heq
    rw [hf]
    rfl

/-- Two documents that say the same, their metadata apart. -/
structure SameBody (d d' : Document) : Prop where
  sections_eq : d.sections = d'.sections
  commands_eq : d.commands = d'.commands
  usages_eq : d.usages = d'.usages
  patterns_eq : d.patterns = d'.patterns

/-- **Line ends do not matter.** Whether lines end in line feeds alone or with carriage returns in
front of them, there is a head in both forms or in neither, the body begins on the same line, and it
holds the same sections, commands, variables and patterns. -/
theorem same_reading_withReturns [Yaml.Loader] {text : Text} (h : '\r' ∉ text) :
    Frontmatter.boundary? (withReturns text) = Frontmatter.boundary? text ∧
      Frontmatter.boundary? (withoutMark (withReturns text)) =
        Frontmatter.boundary? (withoutMark text) ∧
      ∀ d d', read text = .ok d → read (withReturns text) = .ok d' → SameBody d d' := by
  refine ⟨Frontmatter.boundary?_withReturns text, ?_, fun d d' hd hd' => ?_⟩
  · rw [withoutMark_withReturns, Frontmatter.boundary?_withReturns]
  · obtain ⟨m, start, hhead, rfl⟩ := read_eq_ok hd
    obtain ⟨m', start', hhead', rfl⟩ := read_eq_ok hd'
    rw [withoutMark_withReturns] at hhead' ⊢
    have hstart : start' = start := by
      rw [start_of_head hhead', start_of_head hhead, Frontmatter.boundary?_withReturns]
    have hlines : Text.lines (withReturns (withoutMark text)) = Text.lines (withoutMark text) :=
      Text.lines_withReturns fun hmem => h ((withoutMark_suffix text).subset hmem)
    subst hstart
    constructor <;> simp only [ofBody, hlines]

/-- A script with a head. Blank lines follow the delimiter, a call has a body of its own, and a
variable is used. -/
def headedScript : Text :=
  "---\nid: 7\n---\n\n\nGet\n===\n~~~ tar\nPost /orders\n\x7b\n \"n\": 1\n\x7d\nPrint \x7b$n\x7d\n~~~\n".toList

/-- The script reads the same with carriage returns. -/
theorem same_reading_headedScript :
    ∃ d d', '\r' ∉ headedScript ∧ read headedScript = .ok d ∧
      read (withReturns headedScript) = .ok d' ∧
      Frontmatter.boundary? (withReturns headedScript) = some 3 ∧
      Frontmatter.boundary? (withoutMark (withReturns headedScript)) =
        Frontmatter.boundary? (withoutMark headedScript) ∧ SameBody d d' := by
  have hfeeds : '\r' ∉ headedScript := by decide +kernel
  obtain ⟨d, hd⟩ : Answers (read headedScript) := by decide +kernel
  obtain ⟨d', hd'⟩ : Answers (read (withReturns headedScript)) := by decide +kernel
  obtain ⟨hboundary, hmark, hsame⟩ := same_reading_withReturns hfeeds
  have hthree : Frontmatter.boundary? headedScript = some 3 := by decide +kernel
  exact ⟨d, d', hfeeds, hd, hd', hboundary.trans hthree, hmark, hsame d d' hd hd'⟩

end Document

end ScriptAudit
