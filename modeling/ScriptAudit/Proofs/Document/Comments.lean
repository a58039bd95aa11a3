import ScriptAudit.Check.Review
import ScriptAudit.Proofs.Document.Bodies
import ScriptAudit.Proofs.Document.Commands
import ScriptAudit.Proofs.Document.Fences
import ScriptAudit.Yaml.Standard

/-!
# Comments between commands

Comments are passed over when commands are read, but not when variables are: a name behind `Into` and
a pattern count in a comment as on any other line. Here a comment is put in the place of another one.

* `Script.body?_replace` — a body that does not take in the comment stays what it is.
* `Script.exists_commandsFrom_cons` — so does what the first line gives, and
  `Script.commandsFrom_replace`: so do all commands, if no body takes in either comment.
* `Document.comment_replaced` — what becomes of the document.
-/

namespace ScriptAudit

namespace Script

open Command (BodyAt ofLine?)

/-! ## Bodies -/

/-- Lines that balance in front of others balance whatever stands behind them. -/
theorem balanced?_append_of_le {depth : Int} {ls ms body : List Text}
    (h : balanced? depth (ls ++ ms) = some body) (hle : body.length ≤ ls.length)
    (ms' : List Text) : balanced? depth (ls ++ ms') = some body := by
  induction ls generalizing depth body with
  | nil =>
    obtain ⟨l, more, -, rfl, -⟩ := balanced?_eq_some h
    exact absurd hle (by simp)
  | cons l ls ih =>
    rw [List.cons_append, balanced?] at h ⊢
    split at h
    · next hdepth => rw [if_pos hdepth, h]
    · next hdepth =>
      obtain ⟨body, hbody, rfl⟩ := Option.map_eq_some_iff.1 h
      rw [if_neg hdepth, ih hbody (Nat.le_of_succ_le_succ hle)]
      rfl

/-- Lines that are passed over only shift a body. -/
theorem body?_idle_append {idle : List Text} (hidle : ∀ l ∈ idle, isIdle l = true) (ls : List Text) :
    body? (idle ++ ls) = (body? ls).map fun b => (idle.length + b.1, b.2) := by
  have htake : (idle ++ ls).takeWhile isIdle = idle ++ ls.takeWhile isIdle :=
    List.takeWhile_append_of_pos hidle
  have hdrop : (idle ++ ls).drop ((idle ++ ls).takeWhile isIdle).length =
      ls.drop (ls.takeWhile isIdle).length := by
    rw [htake, List.length_append, List.drop_length_add_append]
  cases hrest : ls.drop (ls.takeWhile isIdle).length with
  | nil =>
    rw [hrest] at hdrop
    rw [body?_of_drop_nil hdrop, body?_of_drop_nil hrest]
    rfl
  | cons l rest =>
    rw [hrest] at hdrop
    rw [body?_of_drop_cons hdrop, body?_of_drop_cons hrest, htake, List.length_append]
    split
    · simp [Function.comp_def]
    · rfl

/-- A body begins on the first line, if this one is not passed over. -/
theorem body?_cons {l : Text} (hl : isIdle l = false) (ls : List Text) :
    body? (l :: ls) =
      if (Text.trim l).head? = some '{' ∨ (Text.trim l).head? = some '[' then
        (balanced? 0 (l :: ls)).map fun b => (0, b)
      else none := by
  have htake : (l :: ls).takeWhile isIdle = [] := List.takeWhile_cons_of_neg (by simp [hl])
  have hdrop : (l :: ls).drop ((l :: ls).takeWhile isIdle).length = l :: ls := by rw [htake]; rfl
  rw [body?_of_drop_cons hdrop, htake]
  rfl

/-- **A body in front of a line or behind it.** If a line that is passed over does not stand in the
body, another such line in its place does not change the body. -/
theorem body?_replace {pre post : List Text} {l l' : Text} (hl : isIdle l = true)
    (hl' : isIdle l' = true) {k : Nat} {body : List Text}
    (h : body? (pre ++ l :: post) = some (k, body)) :
    (k ≤ pre.length ∧ pre.length < k + body.length) ∨
      body? (pre ++ l' :: post) = some (k, body) := by
  by_cases hidle : ∀ x ∈ pre, isIdle x = true
  · -- the body begins behind the line
    right
    have hshift {l : Text} (hl : isIdle l = true) : body? (pre ++ l :: post) =
        (body? post).map fun b => (pre.length + 1 + b.1, b.2) := by
      have hall : ∀ x ∈ pre ++ [l], isIdle x = true :=
        List.forall_mem_append.2 ⟨hidle, List.forall_mem_singleton.2 hl⟩
      have := body?_idle_append hall post
      rwa [List.append_assoc, List.length_append] at this
    rw [hshift hl', ← hshift hl, h]
  · -- the body begins in front of the line
    have hsplit := List.takeWhile_append_dropWhile (p := isIdle) (l := pre)
    obtain ⟨x, more, hx⟩ : ∃ x more, pre.dropWhile isIdle = x :: more := by
      refine List.exists_cons_of_ne_nil fun hnil => hidle ?_
      exact List.dropWhile_eq_nil_iff.1 hnil
    have hxidle : isIdle x = false := by
      have := List.head?_dropWhile_not isIdle pre
      rwa [hx] at this
    have hall : ∀ y ∈ pre.takeWhile isIdle, isIdle y = true := fun y => List.mem_takeWhile_imp
    generalize pre.takeWhile isIdle = idle at hsplit hall
    rw [hx] at hsplit
    subst hsplit
    have hread (l : Text) : body? (idle ++ x :: more ++ l :: post) =
        if (Text.trim x).head? = some '{' ∨ (Text.trim x).head? = some '[' then
          (balanced? 0 (x :: more ++ l :: post)).map fun b => (idle.length, b)
        else none := by
      rw [List.append_assoc, body?_idle_append hall, List.cons_append, body?_cons hxidle]
      split <;> simp [Function.comp_def]
    rw [hread] at h ⊢
    split at h
    · next hopen =>
      obtain ⟨b, hb, heq⟩ := Option.map_eq_some_iff.1 h
      obtain ⟨rfl, rfl⟩ := Prod.mk.inj heq
      rw [if_pos hopen]
      by_cases hle : b.length ≤ (x :: more).length
      · rw [balanced?_append_of_le hb hle]
        exact Or.inr rfl
      · rw [List.length_append]
        exact Or.inl ⟨by omega, by omega⟩
    · cases h

/-! ## Commands -/

/-- Line `n` stands in no body of a command. -/
def Outside (lines : List Text) (cs : List Command) (n : Nat) : Prop :=
  ∀ c ∈ cs, ∀ r, BodyAt lines c r → ¬ (r.1 ≤ n ∧ n ≤ r.2)

section

variable {outer pre post rest : List Text} {s n : Nat} (hs : outer.length = s)
include hs

/-- The place of a body that is read behind the line of a command. -/
theorem bodyAt_of_body? {x : Text} {ls : List Text} {c : Command} {k : Nat} {body : List Text}
    (hline : c.line = s + 1) (h : body? ls = some (k, body))
    (hbody : c.body = some (Text.joinWith ['\n'] body)) :
    BodyAt (outer ++ (x :: ls ++ rest)) c (c.line + k + 1, c.line + k + body.length) := by
  obtain ⟨idle, first, more, behind, hsplit, rfl, hidle, rfl, hfirst⟩ := body?_eq_some h
  have hslice : slice (outer ++ (x :: ls ++ rest)) (c.line + 1, c.line + ls.length) =
      idle ++ (first :: more ++ behind) := by
    have := slice_between (outer ++ [x]) ls rest
    rw [List.length_append, List.length_singleton, hs, ← hline, List.append_assoc] at this
    exact this.trans hsplit
  have hlast : c.line + ls.length ≤ (outer ++ (x :: ls ++ rest)).length := by
    simp only [List.length_append, List.length_cons]
    omega
  exact (bodyAt_of_slice hlast hslice hidle hfirst hbody).1

variable {x : Text} {c : Command} (hidle : isIdle x = false)
  (hc : ofLine? (Text.trim x) (s + 1) = some c)
include hidle hc

/-- A line that a body takes in stands in it. -/
theorem not_outside_of_body? {l : Text} {k : Nat} {body : List Text}
    (h : body? (pre ++ l :: post) = some (k, body))
    (hk : k ≤ pre.length ∧ pre.length < k + body.length) :
    ¬ Outside (outer ++ (x :: pre ++ l :: post ++ rest))
      (commandsFrom 0 (numbered (s + 1) (x :: pre ++ l :: post))) (s + (x :: pre).length + 1) := by
  obtain ⟨-, hline, -⟩ := Command.ofLine?_eq_some hc
  have hread : body? ((numbered (s + 1 + 1) (pre ++ l :: post)).map Prod.snd) = some (k, body) := by
    rw [map_snd_numbered, h]
  intro hout
  rw [List.cons_append, numbered, commandsFrom_full _ hidle hc hread] at hout
  refine hout _ List.mem_cons_self _ (bodyAt_of_body? hs hline h rfl) ⟨?_, ?_⟩
  · show c.line + k + 1 ≤ s + (pre.length + 1) + 1
    omega
  · show s + (pre.length + 1) + 1 ≤ c.line + k + body.length
    omega

end

/-- What the first of some lines gives, and how many lines are taken with it, does not depend on a
line that is passed over and stands in no body. -/
theorem exists_commandsFrom_cons {l l' : Text} (hl : isIdle l = true) (hl' : isIdle l' = true)
    {outer pre post rest : List Text} {s : Nat} (hs : outer.length = s) (x : Text)
    (hout : Outside (outer ++ (x :: pre ++ l :: post ++ rest))
      (commandsFrom 0 (numbered (s + 1) (x :: pre ++ l :: post))) (s + (x :: pre).length + 1))
    (hout' : Outside (outer ++ (x :: pre ++ l' :: post ++ rest))
      (commandsFrom 0 (numbered (s + 1) (x :: pre ++ l' :: post))) (s + (x :: pre).length + 1)) :
    ∃ cs taken, ∀ k, k = l ∨ k = l' →
      commandsFrom 0 (numbered (s + 1) (x :: pre ++ k :: post)) =
        cs ++ commandsFrom 0 (numbered (s + 1 + taken + 1) ((pre ++ k :: post).drop taken)) := by
  have hnumbered (k : Text) : numbered (s + 1) (x :: pre ++ k :: post) =
      (s + 1, x) :: numbered (s + 1 + 1) (pre ++ k :: post) := rfl
  by_cases hpass : isIdle x = true ∨ ofLine? (Text.trim x) (s + 1) = none
  · exact ⟨[], 0, fun k _ => by rw [hnumbered, commandsFrom_pass _ hpass]; rfl⟩
  obtain ⟨hidle, c, hc⟩ : isIdle x = false ∧ ∃ c, ofLine? (Text.trim x) (s + 1) = some c := by
    rw [not_or, Bool.not_eq_true, ← ne_eq, Option.ne_none_iff_exists'] at hpass
    exact hpass
  cases hb : body? (pre ++ l :: post) with
  | none =>
    have hb' : body? (pre ++ l' :: post) = none := by
      refine Option.eq_none_iff_forall_ne_some.2 fun b hb' => ?_
      rcases body?_replace hl' hl hb' with hk | hb'
      · exact not_outside_of_body? hs hidle hc hb' hk hout'
      · rw [hb] at hb'
        cases hb'
    refine ⟨[c], 0, ?_⟩
    rintro k (rfl | rfl)
    · rw [hnumbered, commandsFrom_bare _ hidle hc (by rw [map_snd_numbered, hb])]
      rfl
    · rw [hnumbered, commandsFrom_bare _ hidle hc (by rw [map_snd_numbered, hb'])]
      rfl
  | some b =>
    obtain ⟨i, body⟩ := b
    have hb' : body? (pre ++ l' :: post) = some (i, body) :=
      (body?_replace hl hl' hb).resolve_left fun hk =>
        not_outside_of_body? hs hidle hc hb hk hout
    refine ⟨[{ c with body := some (Text.joinWith ['\n'] body) }], i + body.length, ?_⟩
    rintro k (rfl | rfl)
    · rw [hnumbered, commandsFrom_full _ hidle hc (by rw [map_snd_numbered, hb]), drop_numbered,
        Nat.add_right_comm (s + 1)]
      rfl
    · rw [hnumbered, commandsFrom_full _ hidle hc (by rw [map_snd_numbered, hb']), drop_numbered,
        Nat.add_right_comm (s + 1)]
      rfl

/-- **Commands around a comment.** If a line that is passed over stands in no body, and another such
line does not either in its place, the commands of the block are the same. -/
theorem commandsFrom_replace {l l' : Text} (hl : isIdle l = true) (hl' : isIdle l' = true)
    {outer pre post rest : List Text} {s n : Nat} (hs : outer.length = s)
    (hn : s + pre.length + 1 = n)
    (hout : Outside (outer ++ (pre ++ l :: post ++ rest))
      (commandsFrom 0 (numbered (s + 1) (pre ++ l :: post))) n)
    (hout' : Outside (outer ++ (pre ++ l' :: post ++ rest))
      (commandsFrom 0 (numbered (s + 1) (pre ++ l' :: post))) n) :
    commandsFrom 0 (numbered (s + 1) (pre ++ l :: post)) =
      commandsFrom 0 (numbered (s + 1) (pre ++ l' :: post)) := by
  induction hlength : pre.length using Nat.strong_induction_on generalizing s outer pre with
  | _ length ih =>
    subst hlength
    cases pre with
    | nil =>
      rw [List.nil_append, List.nil_append, numbered, numbered, commandsFrom_pass _ (Or.inl hl),
        commandsFrom_pass _ (Or.inl hl')]
    | cons x pre =>
      subst hn
      obtain ⟨cs, taken, hread⟩ := exists_commandsFrom_cons hl hl' hs x hout hout'
      rw [hread l (Or.inl rfl)] at hout ⊢
      rw [hread l' (Or.inr rfl)] at hout' ⊢
      refine congrArg (cs ++ ·) ?_
      by_cases hle : taken ≤ pre.length
      · -- the line is among those that are left
        have hdrop (k : Text) : (pre ++ k :: post).drop taken = pre.drop taken ++ k :: post :=
          List.drop_append_of_le_length hle
        have hlines (k : Text) : outer ++ (x :: pre ++ k :: post ++ rest) =
            outer ++ x :: pre.take taken ++ (pre.drop taken ++ k :: post ++ rest) := by
          simp only [List.append_assoc, List.cons_append]
          rw [← List.append_assoc (pre.take taken), List.take_append_drop]
        have hs' : (outer ++ x :: pre.take taken).length = s + 1 + taken := by
          rw [List.length_append, List.length_cons, List.length_take_of_le hle, hs]
          omega
        have hn' : s + 1 + taken + (pre.drop taken).length + 1 = s + (x :: pre).length + 1 := by
          rw [List.length_drop, List.length_cons]
          omega
        have hshorter : (pre.drop taken).length < (x :: pre).length := by
          rw [List.length_drop, List.length_cons]
          omega
        rw [hdrop, hlines] at hout hout'
        rw [hdrop, hdrop]
        exact ih _ hshorter hs' hn' (fun c hc => hout c (List.mem_append_right cs hc))
          (fun c hc => hout' c (List.mem_append_right cs hc)) rfl
      · -- the line has been taken with the others
        obtain ⟨i, rfl⟩ : ∃ i, taken = pre.length + (i + 1) := ⟨taken - pre.length - 1, by omega⟩
        rw [List.drop_length_add_append, List.drop_length_add_append, List.drop_succ_cons,
          List.drop_succ_cons]

/-- The commands of all blocks, if a line of one of them is passed over. -/
theorem commands_replace {l l' : Text} (hl : isIdle l = true) (hl' : isIdle l' = true)
    {outer pre below : List Text} {f : Fence} {cs cs' : List Command}
    (hout : Outside (outer ++ pre ++ l :: below)
      (cs ++ (commandsFrom 0 (numbered (outer.length + 1) (pre ++ l :: f.blockOf below)) ++ cs'))
      ((outer ++ pre).length + 1))
    (hout' : Outside (outer ++ pre ++ l' :: below)
      (cs ++ (commandsFrom 0 (numbered (outer.length + 1) (pre ++ l' :: f.blockOf below)) ++ cs'))
      ((outer ++ pre).length + 1)) :
    commandsFrom 0 (numbered (outer.length + 1) (pre ++ l :: f.blockOf below)) =
      commandsFrom 0 (numbered (outer.length + 1) (pre ++ l' :: f.blockOf below)) := by
  obtain ⟨rest, hrest⟩ : ∃ rest, below = f.blockOf below ++ rest :=
    ⟨_, List.takeWhile_append_dropWhile.symm⟩
  have hlines (k : Text) :
      outer ++ pre ++ k :: below = outer ++ (pre ++ k :: f.blockOf below ++ rest) := by
    conv_lhs => rw [hrest]
    simp
  rw [hlines] at hout hout'
  exact commandsFrom_replace hl hl' rfl (by rw [List.length_append])
    (fun c hc => hout c (List.mem_append_right _ (List.mem_append_left _ hc)))
    (fun c hc => hout' c (List.mem_append_right _ (List.mem_append_left _ hc)))

/-- Where the same lines are passed over, the bodies of some commands stand on the same lines. -/
theorem Outside.of_isIdle_eq {t t' : Text}
    (hidle : (Text.lines t).map isIdle = (Text.lines t').map isIdle) {start n : Nat}
    {cs : List Command} (hcover : CommandCover start (Text.lines t) cs)
    (h : Outside (Text.lines t) cs n) : Outside (Text.lines t') cs n := by
  intro c hc r hr
  have hbody : c.body ≠ none := by
    rw [hr.body_eq]
    exact Option.some_ne_none _
  obtain ⟨r', hr', -⟩ := hcover.existsUnique_bodyAt c hc hbody
  obtain rfl := hr'.eq_of_isIdle_eq hidle (fun l => Text.lineFeed_notMem_of_mem_lines)
    (fun l => Text.lineFeed_notMem_of_mem_lines) hr
  exact h c hc r' hr'

theorem isIdle_of_isComment {l : Text} (h : isComment (Text.trim l) = true) : isIdle l = true := by
  rw [isIdle, h, Bool.or_true]

end Script

/-! ## Comments and fences -/

/-- A comment closes no fence. -/
theorem Fence.closes_of_isComment {l k : Text} {f : Fence} (h : ofLine? l = some f)
    (hk : Script.isComment (Text.trim k) = true) : closes f.marks k = false := by
  rw [closes, ← Bool.not_eq_true]
  simp only [Bool.and_eq_true, List.isPrefixOf_iff_prefix]
  rintro ⟨⟨⟨rest, hrest⟩, -⟩, -⟩
  have hhead : (Text.trim k).head? = f.marks.head? := by
    rw [← hrest, List.head?_append_of_ne_nil _ (marks_ne_nil h)]
  rw [Script.isComment, Bool.or_eq_true, List.isPrefixOf_iff_prefix, List.isPrefixOf_iff_prefix] at hk
  rcases hk with ⟨rest, hk⟩ | ⟨rest, hk⟩ <;> rw [← hk] at hhead <;>
    rcases head?_marks h with hmark | hmark <;> rw [hmark] at hhead <;>
      exact absurd (Option.some.inj hhead) (by decide)

/-! ## Documents -/

/-- The variables of a line stand between those of the lines around it. -/
theorem Variable.exists_ofBlocks_eq (f : Fence) (outer pre post : List Text)
    (front back : List CodeBlock) :
    ∃ us us', ∀ l,
      ofBlocks (front ++ ⟨f, numbered (outer.length + 1) (pre ++ l :: post)⟩ :: back) =
        us ++ (ofLine ((outer ++ pre).length + 1) l ++ us') := by
  refine ⟨ofBlocks front ++ (numbered (outer.length + 1) pre).flatMap fun p => ofLine p.1 p.2,
    ((numbered ((outer ++ pre).length + 1 + 1) post).flatMap fun p => ofLine p.1 p.2) ++ ofBlocks back,
    fun l => ?_⟩
  rw [numbered_append, numbered, Nat.add_right_comm outer.length 1, ← List.length_append]
  simp [ofBlocks]

namespace Document

open Script (Outside)

/-- What two documents have in common of which line `n` is the comment `l` in the one and the comment
`l'` in the other. -/
structure Recommented (lines lines' : List Text) (n : Nat) (l l' : Text) (d d' : Document) : Prop where
  /-- If no body takes in the one comment, the commands are the same exactly if none takes in the
  other. -/
  commands_eq_iff : Outside lines d.commands n →
    (d'.commands = d.commands ↔ Outside lines' d'.commands n)
  operations_eq : d'.commands = d.commands →
    d'.sections.map Section.operations = d.sections.map Section.operations
  issues_eq : d'.commands = d.commands → Check.commands d' = Check.commands d
  /-- The variables of the comment take the place of those of the other. -/
  exists_usages : ∃ front back, d.usages = front ++ (Variable.ofLine n l ++ back) ∧
    d'.usages = front ++ (Variable.ofLine n l' ++ back)
  usages_eq_iff : d'.usages = d.usages ↔ Variable.ofLine n l' = Variable.ofLine n l

/-- **A comment in the place of another one.** In every document that is read, a comment inside of a fence
that holds commands is replaced by another one. The head is the same, which is asked for because a line
of dashes can end settings that were not closed. Then the commands stay what they are exactly if no body
takes in the new comment, and with them the server calls of the sections and the issues of the commands.
The variables do not: those that the new comment names take the place of those of the old one. -/
theorem comment_replaced [Yaml.Loader] {text text' : Text} {m : Option Metadata} {start : Nat}
    (hhead : head (withoutMark text) = .ok (m, start))
    (hhead' : head (withoutMark text') = .ok (m, start)) {above below : List Text} {l l' : Text}
    (hlines : Text.lines (withoutMark text) = above ++ l :: below)
    (hlines' : Text.lines (withoutMark text') = above ++ l' :: below) {f : Fence}
    (hcontent : Content start (above ++ l :: below) f (above.length + 1) l)
    (hf : f.opensScript = true) (hl : Script.isComment (Text.trim l) = true)
    (hl' : Script.isComment (Text.trim l') = true) :
    ∃ d d', read text = .ok d ∧ read text' = .ok d' ∧
      Recommented (above ++ l :: below) (above ++ l' :: below) (above.length + 1) l l' d d' := by
  have hstart : start ≤ above.length := Nat.lt_succ_iff.1 hcontent.start_lt
  have hopen := hcontent.isOpen
  rw [Nat.add_sub_cancel, List.take_left] at hopen
  obtain ⟨-, o, -, -, -, ho, -⟩ := Fence.exists_opening hopen
  obtain ⟨front, outer, pre, back, hs, rfl, haround⟩ :=
    exists_scriptBlocks_around hstart hopen hf below
  obtain ⟨us, us', hus⟩ :=
    Variable.exists_ofBlocks_eq f outer pre (f.blockOf below) front back
  -- what is read of a document with either comment
  have hparts {t k : Text} (hlines : Text.lines t = outer ++ pre ++ k :: below)
      (hk : Fence.closes f.marks k = false) :
      (ofBody m start t).commands = front.flatMap Script.commands ++
          (Script.commandsFrom 0 (numbered (outer.length + 1) (pre ++ k :: f.blockOf below)) ++
            back.flatMap Script.commands) ∧
        (ofBody m start t).sections.map Section.operations =
          (Section.bounds start (outer ++ pre ++ k :: below).length hs).map (fun b =>
            (Section.ofBounds [] (ofBody m start t).commands b).operations) ∧
        (ofBody m start t).usages = us ++ (Variable.ofLine ((outer ++ pre).length + 1) k ++ us') := by
    obtain ⟨hblocks, hheadings⟩ := haround k hk
    refine ⟨?_, ?_, ?_⟩
    · rw [ofBody, hlines, hblocks, List.flatMap_append, List.flatMap_cons]
      rfl
    · rw [ofBody, hlines, hheadings, List.map_map]
      rfl
    · rw [ofBody, hlines, hblocks, hus]
  obtain ⟨hcommands, hoperations, husages⟩ := hparts hlines hcontent.closes_eq_false
  obtain ⟨hcommands', hoperations', husages'⟩ :=
    hparts hlines' (Fence.closes_of_isComment ho hl')
  have hidle := Script.isIdle_of_isComment hl
  have hidle' := Script.isIdle_of_isComment hl'
  have hlength : (outer ++ pre ++ l :: below).length = (outer ++ pre ++ l' :: below).length := by
    simp
  refine ⟨_, _, read_of_head hhead, read_of_head hhead', fun hout => ⟨fun hsame => ?_, fun hout' => ?_⟩,
    fun hsame => ?_, fun hsame => ?_, ⟨us, us', husages, husages'⟩, ?_⟩
  · -- the bodies of the commands stand on the same lines
    have hcover : CommandCover start (Text.lines (withoutMark text))
        (ofBody m start (withoutMark text)).commands :=
      Script.commandCover_scriptBlocks (fun k => Text.lineFeed_notMem_of_mem_lines)
        (head_le_length_lines hhead)
    rw [← hlines] at hout
    rw [hsame, ← hlines']
    exact hout.of_isIdle_eq (by simp [hlines, hlines', hidle, hidle']) hcover
  · rw [hcommands] at hout ⊢
    rw [hcommands'] at hout' ⊢
    rw [Script.commands_replace hidle hidle' hout hout']
  · rw [hoperations, hoperations', hsame, hlength]
  · rw [Check.commands, Check.commands, hsame]
    rfl
  · rw [husages, husages', List.append_cancel_left_eq, List.append_cancel_right_eq]

/-- A call that is commented out in one line, with a usage of its variable below it. -/
def commentedCall (comment : Text) : Text :=
  "\x60\x60\x60\n".toList ++ comment ++ "\nPrint \x7b$order\x7d\n\x60\x60\x60\n".toList

theorem comment_replaced_commentedCall :
    ∃ d d', read (commentedCall "// Get /a Into order".toList) = .ok d ∧
      read (commentedCall "// Get /a".toList) = .ok d' ∧
      Recommented (Text.lines (commentedCall "// Get /a Into order".toList))
        (Text.lines (commentedCall "// Get /a".toList)) 2 "// Get /a Into order".toList
        "// Get /a".toList d d' := by
  have hhead : head (withoutMark (commentedCall "// Get /a Into order".toList)) = .ok (none, 0) := rfl
  have hhead' : head (withoutMark (commentedCall "// Get /a".toList)) = .ok (none, 0) := rfl
  have hcontent : Content 0 (["\x60\x60\x60".toList] ++ "// Get /a Into order".toList ::
      ["Print \x7b$order\x7d".toList, "\x60\x60\x60".toList]) ⟨"\x60\x60\x60".toList, []⟩ 2
      "// Get /a Into order".toList :=
    ⟨by decide, rfl, rfl, by decide +kernel⟩
  exact comment_replaced hhead hhead' (by decide +kernel) (by decide +kernel) hcontent
    (by decide +kernel) (by decide +kernel) (by decide +kernel)

/-- The variable of a commented out call counts as defined. -/
theorem usages_of_commentedCall :
    ∃ d d', read (commentedCall "// Get /a Into order".toList) = .ok d ∧
      read (commentedCall "// Get /a".toList) = .ok d' ∧ d'.commands = d.commands ∧
      d.commands.map (fun c => (c.line, c.body)) = [(3, none)] ∧
      d.usages.map (fun u => (u.line, u.name, u.isDefinition)) =
        [(2, "order".toList, true), (3, "order".toList, false)] ∧
      d'.usages.map (fun u => (u.line, u.name, u.isDefinition)) = [(3, "order".toList, false)] ∧
      (Check.naming d.usages).map Issue.code = [] ∧
      (Check.naming d'.usages).map Issue.code = ["NAME002".toList] :=
  ⟨ofBody none 0 (commentedCall "// Get /a Into order".toList),
    ofBody none 0 (commentedCall "// Get /a".toList), rfl, rfl, by decide +kernel, by decide +kernel,
    by decide +kernel, by decide +kernel, by decide +kernel, by decide +kernel⟩

end Document

end ScriptAudit
