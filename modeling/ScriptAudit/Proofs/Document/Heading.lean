import ScriptAudit.Proofs.Document.Sections

/-!
# The lines of a heading

A heading is one line with number signs in front, or a paragraph of any number of lines together with
the line below it. The scan keeps the paragraph under way, so that it knows the number of its first
line when the line below it comes.

* `Heading.IsWritten` — the lines in which a heading is written; they are determined by what they
  begin (`Heading.IsWritten.unique`).
* `Cuts` — lines cut by headings: each one stands behind lines that belong to none.
* `cuts_headingsFrom` — the invariant of the scan.
* `Section.exists_isHeadedBy` — every section with a heading begins with the lines of the heading.
-/

namespace ScriptAudit

namespace Heading

/-! ## How headings are written -/

/-- Whether a line of the running text belongs to a paragraph. -/
def IsPlain (l : Text) : Prop :=
  Fence.ofLine? l = none ∧ markedHeading? l = none ∧ Text.blank l = false

/-- The lines in which a heading with the given text is written. -/
inductive IsWritten (text : Text) : List Text → Prop
  /-- A line with number signs in front. -/
  | marked {l : Text} (hl : markedHeading? l = some text) : IsWritten text [l]
  /-- A paragraph and the line below it. -/
  | underlined {first l : Text} {more : List Text} (hfirst : IsPlain first)
      (hmore : ∀ p ∈ more, IsPlain p ∧ isUnderline p = false) (hl : isUnderline l = true)
      (htext : text = Text.joinWith [' '] ((first :: more).map Text.trim)) :
      IsWritten text (first :: (more ++ [l]))

theorem IsWritten.ne_nil {text : Text} {ls : List Text} (h : IsWritten text ls) : ls ≠ [] := by
  cases h <;> exact List.cons_ne_nil _ _

/-- The line below a paragraph is the first one of its kind. -/
theorem eq_of_append_underline {more more' rest rest' : List Text} {l l' : Text}
    (hmore : ∀ p ∈ more, isUnderline p = false) (hl : isUnderline l = true)
    (hmore' : ∀ p ∈ more', isUnderline p = false) (hl' : isUnderline l' = true)
    (heq : more ++ l :: rest = more' ++ l' :: rest') : more = more' ∧ l = l' := by
  have hcut {more : List Text} {l : Text} (rest : List Text)
      (hmore : ∀ p ∈ more, isUnderline p = false) (hl : isUnderline l = true) :
      (more ++ l :: rest).takeWhile (!isUnderline ·) = more ∧
        (more ++ l :: rest).dropWhile (!isUnderline ·) = l :: rest := by
    have hall : ∀ p ∈ more, (!isUnderline p) = true := fun p hp => by simp [hmore p hp]
    rw [List.takeWhile_append_of_pos hall, List.dropWhile_append_of_pos hall]
    simp [hl]
  obtain ⟨hbefore, hbehind⟩ := hcut rest hmore hl
  obtain ⟨hbefore', hbehind'⟩ := hcut rest' hmore' hl'
  rw [heq] at hbefore hbehind
  exact ⟨hbefore.symm.trans hbefore', (List.cons.inj (hbehind.symm.trans hbehind')).1⟩

/-- Lines begin with the lines of one heading at most. -/
theorem IsWritten.unique {text text' : Text} {ls ls' rest rest' : List Text}
    (h : IsWritten text ls) (h' : IsWritten text' ls') (heq : ls ++ rest = ls' ++ rest') :
    ls = ls' := by
  cases h with
  | marked hl =>
    cases h' with
    | marked hl' =>
      obtain ⟨rfl, -⟩ := List.cons.inj heq
      rfl
    | underlined hfirst =>
      obtain ⟨rfl, -⟩ := List.cons.inj heq
      rw [hfirst.2.1] at hl
      cases hl
  | @underlined _ l more hfirst hmore hl =>
    cases h' with
    | marked hl' =>
      obtain ⟨rfl, -⟩ := List.cons.inj heq
      rw [hfirst.2.1] at hl'
      cases hl'
    | @underlined _ l' more' hfirst' hmore' hl' =>
      obtain ⟨rfl, heq⟩ := List.cons.inj heq
      have heq : more ++ l :: rest = more' ++ l' :: rest' := by simpa using heq
      obtain ⟨rfl, rfl⟩ := eq_of_append_underline (fun p hp => (hmore p hp).2) hl
        (fun p hp => (hmore' p hp).2) hl' heq
      rfl

end Heading

/-! ## Lines cut by headings -/

/-- Headings, in order, in lines numbered from `n` on. -/
inductive Cuts : (n : Nat) → List Text → List Heading → Prop
  /-- No heading. -/
  | nil (n : Nat) (ls : List Text) : Cuts n ls []
  /-- A heading behind some lines, and those in the lines below it. -/
  | cons {n : Nat} {before head rest : List Text} {h : Heading} {hs : List Heading}
      (line : h.line = n + before.length) (written : Heading.IsWritten h.text head)
      (below : Cuts (h.line + head.length) rest hs) : Cuts n (before ++ (head ++ rest)) (h :: hs)

/-- Lines without a heading may stand in front. -/
theorem Cuts.append {n : Nat} {ls : List Text} {hs : List Heading} (front : List Text)
    (h : Cuts (n + front.length) ls hs) : Cuts n (front ++ ls) hs := by
  cases h with
  | nil => exact .nil n _
  | @cons _ before head rest h hs line written below =>
    rw [← List.append_assoc]
    refine .cons ?_ written below
    rw [line, List.length_append, Nat.add_assoc]

/-- A line that is not of a heading, and the lines in front of it. -/
theorem Cuts.skip {n : Nat} {front ls : List Text} {l : Text} {hs : List Heading}
    (h : Cuts (n + front.length + 1) ls hs) : Cuts n (front ++ l :: ls) hs := by
  have hlength : n + (front ++ [l]).length = n + front.length + 1 := by
    rw [List.length_append, List.length_singleton, Nat.add_assoc]
  have hcut := Cuts.append (front ++ [l]) (hlength ▸ h)
  rwa [List.append_assoc] at hcut

/-- Numbered lines. -/
def numberedFrom (n : Nat) (ls : List Text) : List (Nat × Text) := (ls.zipIdx n).map Prod.swap

theorem numberedFrom_concat (n : Nat) (ls : List Text) (l : Text) :
    (numberedFrom n (ls ++ [l])).reverse = (n + ls.length, l) :: (numberedFrom n ls).reverse := by
  simp [numberedFrom, List.zipIdx_append]

theorem map_snd_numberedFrom (n : Nat) (ls : List Text) (f : Text → Text) :
    (numberedFrom n ls).map (fun p => f p.2) = ls.map f := by
  conv_rhs => rw [← List.zipIdx_map_fst n ls]
  rw [numberedFrom, List.map_map, List.map_map]
  rfl

/-- The lines of the paragraph under way. -/
structure IsParagraph (ls : List Text) : Prop where
  plain : ∀ l ∈ ls, Heading.IsPlain l
  underline : ∀ l ∈ ls.tail, isUnderline l = false

theorem isParagraph_nil : IsParagraph [] := ⟨nofun, nofun⟩

/-- A line of the running text that neither is a heading nor makes one goes on with the paragraph. -/
theorem IsParagraph.concat {ls : List Text} {l : Text} (h : IsParagraph ls) (hl : Heading.IsPlain l)
    (hunderline : ls = [] ∨ isUnderline l = false) : IsParagraph (ls ++ [l]) := by
  refine ⟨List.forall_mem_append.2 ⟨h.plain, List.forall_mem_singleton.2 hl⟩, ?_⟩
  cases ls with
  | nil => exact nofun
  | cons first more =>
    have hl : isUnderline l = false := hunderline.resolve_left (List.cons_ne_nil _ _)
    exact List.forall_mem_append.2 ⟨h.underline, List.forall_mem_singleton.2 hl⟩

/-- A paragraph with an underline below it is a heading. -/
theorem IsParagraph.cuts_underlined {n : Nat} {first l : Text} {more ls : List Text}
    {hs : List Heading} (h : IsParagraph (first :: more)) (hl : isUnderline l = true)
    (hbelow : Cuts (n + (first :: more).length + 1) ls hs) : Cuts n (first :: more ++ l :: ls)
      (⟨n, Text.joinWith [' '] ((first :: more).map Text.trim)⟩ :: hs) := by
  have hwritten : Heading.IsWritten (Text.joinWith [' '] ((first :: more).map Text.trim))
      (first :: (more ++ [l])) :=
    .underlined (h.plain first List.mem_cons_self)
      (fun p hp => ⟨h.plain p (List.mem_cons_of_mem _ hp), h.underline p hp⟩) hl rfl
  have hlength : n + (first :: (more ++ [l])).length = n + (first :: more).length + 1 := by
    simp [Nat.add_assoc]
  have hcut : Cuts n ([] ++ (first :: (more ++ [l]) ++ ls))
      (⟨n, Text.joinWith [' '] ((first :: more).map Text.trim)⟩ :: hs) :=
    .cons rfl hwritten (hlength ▸ hbelow)
  simpa using hcut

/-- The headings cut the lines that are still to come, together with the paragraph under way. There
is no such paragraph in a code block. -/
theorem cuts_headingsFrom (ls : List Text) {m : Nat} {paragraph : List Text} {fence : Option Fence}
    (hp : IsParagraph paragraph) (hfence : fence = none ∨ paragraph = []) :
    Cuts m (paragraph ++ ls) (headingsFrom (numberedFrom m paragraph).reverse
      (Line.follow (m + paragraph.length) fence ls)) := by
  induction ls generalizing m paragraph fence with
  | nil => exact .nil m _
  | cons l ls ih =>
    have hend (n : Nat) (fence' : Option Fence) :
        Cuts n ls (headingsFrom [] (Line.follow n fence' ls)) :=
      ih isParagraph_nil (Or.inr rfl)
    -- a line that leaves no paragraph behind
    have hskip (fence' : Option Fence) : Cuts m (paragraph ++ l :: ls)
        (headingsFrom [] (Line.follow (m + paragraph.length + 1) fence' ls)) :=
      (hend _ fence').skip
    rw [Line.follow_cons, headingsFrom]
    cases fence with
    | some f =>
      obtain rfl : paragraph = [] := hfence.resolve_left (Option.some_ne_none f)
      have hrole : Role.ofLine (some f) l = .closes ∨ Role.ofLine (some f) l = .code := by
        rw [Role.ofLine]
        split <;> simp
      rcases hrole with hrole | hrole <;> rw [hrole] <;> exact hskip _
    | none =>
      cases hopen : Fence.ofLine? l with
      | some f =>
        simp only [Role.ofLine, hopen]
        exact hskip _
      | none =>
        simp only [Role.ofLine, hopen, Fence.openAfter]
        cases hmarked : markedHeading? l with
        | some t =>
            exact .cons rfl (.marked hmarked) (hend _ none)
        | none =>
          have hplain (hblank : Text.blank l = false)
              (hunderline : paragraph = [] ∨ isUnderline l = false) :
              Cuts m (paragraph ++ l :: ls) (headingsFrom
                ((m + paragraph.length, l) :: (numberedFrom m paragraph).reverse)
                (Line.follow (m + paragraph.length + 1) none ls)) := by
            have := ih (m := m) (hp.concat ⟨hopen, hmarked, hblank⟩ hunderline) (Or.inl rfl)
            simpa [numberedFrom_concat, Nat.add_assoc] using this
          rw [List.reverse_reverse]
          cases paragraph with
          | nil =>
            show Cuts m _ (if Text.blank l then _ else _)
            split
            · exact hskip none
            · next hblank => exact hplain (by simpa using hblank) (Or.inl rfl)
          | cons first more =>
            show Cuts m _ (if isUnderline l then _ else if Text.blank l then _ else _)
            split
            · next hunderline =>
              show Cuts m _ (⟨m, Text.joinWith [' '] ((numberedFrom m (first :: more)).map
                fun p => Text.trim p.2)⟩ :: _)
              rw [map_snd_numberedFrom]
              exact hp.cuts_underlined hunderline (hend _ none)
            · next hunderline =>
              split
              · exact hskip none
              · next hblank =>
                exact hplain (by simpa using hblank) (Or.inr (by simpa using hunderline))

/-! ## Sections -/

namespace Section

/-- Whether lines are those of a heading, with the given text, and of what stands below it. -/
def IsHeadedBy (text : Text) (lines head body : List Text) : Prop :=
  lines = head ++ body ∧ Heading.IsWritten text head

theorem IsHeadedBy.unique {text : Text} {lines head body head' body' : List Text}
    (h : IsHeadedBy text lines head body) (h' : IsHeadedBy text lines head' body') :
    head = head' ∧ body = body' := by
  have heq := h.1.symm.trans h'.1
  obtain rfl := h.2.unique h'.2 heq
  exact ⟨rfl, List.append_cancel_left heq⟩

/-- Between two headings stand the lines of the first one and those below it. -/
theorem exists_isHeadedBy_boundsOf {front ls : List Text} {hs : List Heading}
    (h : Cuts (front.length + 1) ls hs) :
    ∀ b ∈ boundsOf (front ++ ls).length hs,
      ∃ head body, IsHeadedBy b.heading (slice (front ++ ls) b.range) head body := by
  induction hs generalizing front ls with
  | nil => exact nofun
  | cons h hs ih =>
    cases h with
    | @cons _ before head rest _ _ line written below =>
    -- the lines in front of the heading, and those up to its end
    have hfirst : h.line = (front ++ before).length + 1 := by
      simp only [line, List.length_append]
      omega
    have hrest : Cuts ((front ++ before ++ head).length + 1) rest hs := by
      have hlength : h.line + head.length = (front ++ before ++ head).length + 1 := by
        simp only [hfirst, List.length_append]
        omega
      rwa [hlength] at below
    have hlines : front ++ (before ++ (head ++ rest)) = front ++ before ++ (head ++ rest) :=
      (List.append_assoc ..).symm
    rw [hlines]
    cases hs with
    | nil =>
      refine List.forall_mem_singleton.2 ⟨head, rest, ?_, written⟩
      have := slice_between (front ++ before) (head ++ rest) []
      rwa [List.append_nil, ← List.length_append, ← hfirst] at this
    | cons next hs =>
      refine List.forall_mem_cons.2 ⟨?_, ?_⟩
      · cases hrest with
        | @cons _ before' head' rest' _ _ line' =>
        refine ⟨head, before', ?_, written⟩
        have hlast : next.line - 1 = (front ++ before).length + (head ++ before').length := by
          simp only [line', List.length_append]
          omega
        have := slice_between (front ++ before) (head ++ before') (head' ++ rest')
        rwa [← hlast, ← hfirst, List.append_assoc head] at this
      · have := ih hrest
        rwa [List.append_assoc _ head] at this

/-- **A section with a heading begins with the lines of the heading.** -/
theorem exists_isHeadedBy [Yaml.Loader] {text : Text} {d : Document}
    (h : Document.read text = .ok d) {s : Section} (hs : s ∈ d.sections) (hne : s.heading ≠ []) :
    ∃ head body, IsHeadedBy s.heading
      (slice (Text.lines (Document.withoutMark text)) s.range) head body := by
  obtain ⟨m, start, hhead, rfl⟩ := Document.read_eq_ok h
  have hstart := Document.head_le_length_lines hhead
  generalize Document.withoutMark text = t at hs hstart ⊢
  obtain ⟨b, hb, rfl⟩ := List.mem_map.1 hs
  have hlines : (Text.lines t).take start ++ (Text.lines t).drop start = Text.lines t :=
    List.take_append_drop ..
  have hcuts : Cuts (((Text.lines t).take start).length + 1) ((Text.lines t).drop start)
      (headings (Line.ofLines start (Text.lines t))) := by
    rw [List.length_take, Nat.min_eq_left hstart, Line.ofLines_eq_follow]
    exact cuts_headingsFrom _ isParagraph_nil (Or.inl rfl)
  have hbounds := exists_isHeadedBy_boundsOf hcuts
  rw [hlines] at hbounds
  rcases List.mem_append.1 hb with hb | hb
  · -- in front of the first heading
    split at hb
    · obtain rfl := List.mem_singleton.1 hb
      exact absurd rfl hne
    · cases hb
  · exact hbounds b hb

end Section

end ScriptAudit
