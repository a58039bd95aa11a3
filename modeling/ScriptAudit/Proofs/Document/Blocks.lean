import ScriptAudit.Proofs.Document.Layout

/-!
# The lines of code blocks

`codeBlocks` collects the lines of a block from the end of the body to its beginning. Here the same
blocks are read off the lines in order.

* `Content` — a line stands in a code block, told by the fence that the lines above it leave open.
* `contentsFrom` — all such lines of a body, and `flatMap_contents_splitBlocks`: they are the lines
  of the blocks.
* `content_iff_exists_block`, `pairwise_codeBlocks`, `exists_spans_of_mem_codeBlocks` — the lines of
  the blocks are the lines inside of fences, in order, and those of one block follow one another.
-/

namespace ScriptAudit

/-! ## Lines inside of fences -/

/-- Line `n` of a document is `l` and stands in the code block of the fence `f`, in a body that
begins behind line `start`. -/
structure Content (start : Nat) (lines : List Text) (f : Fence) (n : Nat) (l : Text) : Prop where
  start_lt : start < n
  getElem?_eq : lines[n - 1]? = some l
  /-- The lines of the body above leave the fence open. -/
  isOpen : ((lines.take (n - 1)).drop start).foldl Fence.openAfter none = some f
  closes_eq_false : Fence.closes f.marks l = false

/-- The lines inside of fences, numbered from `n` on, after the given open fence. -/
def contentsFrom : (fence : Option Fence) → (n : Nat) → List Text → List (Fence × Nat × Text)
  | _, _, [] => []
  | none, n, l :: ls => contentsFrom (Fence.openAfter none l) (n + 1) ls
  | some f, n, l :: ls =>
    if Fence.closes f.marks l then contentsFrom none (n + 1) ls
    else (f, n, l) :: contentsFrom (some f) (n + 1) ls

/-- The first line stands inside of the open fence unless it closes it. -/
theorem mem_contentsFrom_cons {fence : Option Fence} {n : Nat} {l' : Text} {ls : List Text}
    {f : Fence} {m : Nat} {l : Text} :
    (f, m, l) ∈ contentsFrom fence n (l' :: ls) ↔
      (m = n ∧ l' = l ∧ fence = some f ∧ Fence.closes f.marks l = false) ∨
        (f, m, l) ∈ contentsFrom (Fence.openAfter fence l') (n + 1) ls := by
  cases fence with
  | none => simp [contentsFrom]
  | some f' =>
    rw [contentsFrom, Fence.openAfter]
    cases hc : Fence.closes f'.marks l' with
    | true =>
      rw [if_pos rfl, if_pos rfl]
      refine ⟨Or.inr, fun h => h.resolve_left ?_⟩
      rintro ⟨-, rfl, hf, hc'⟩
      obtain rfl : f' = f := Option.some.inj hf
      rw [hc] at hc'
      exact Bool.false_ne_true hc'.symm
    | false =>
      rw [if_neg Bool.false_ne_true, if_neg Bool.false_ne_true, List.mem_cons]
      refine or_congr ⟨fun h => ?_, ?_⟩ Iff.rfl
      · obtain ⟨rfl, rfl, rfl⟩ : f = f' ∧ m = n ∧ l = l' := by simpa using h
        exact ⟨rfl, rfl, rfl, hc⟩
      · rintro ⟨rfl, rfl, hf, -⟩
        obtain rfl : f' = f := Option.some.inj hf
        rfl

/-- A line stands inside of the fence that the lines before it leave open. -/
theorem mem_contentsFrom {fence : Option Fence} {n : Nat} {ls : List Text} {f : Fence} {m : Nat}
    {l : Text} :
    (f, m, l) ∈ contentsFrom fence n ls ↔
      ∃ i, m = n + i ∧ ls[i]? = some l ∧ (ls.take i).foldl Fence.openAfter fence = some f ∧
        Fence.closes f.marks l = false := by
  induction ls generalizing fence n with
  | nil => simp [contentsFrom]
  | cons l' ls ih =>
    rw [mem_contentsFrom_cons, ← Nat.or_exists_add_one, ih]
    refine or_congr ?_ (exists_congr fun i => ?_)
    · simp
    · rw [Nat.add_assoc, Nat.add_comm 1 i]
      rfl

/-- Lines inside of fences come in the order of their numbers. -/
theorem pairwise_contentsFrom (fence : Option Fence) (n : Nat) (ls : List Text) :
    (contentsFrom fence n ls).Pairwise fun e e' => e.2.1 < e'.2.1 := by
  induction ls generalizing fence n with
  | nil => exact List.Pairwise.nil
  | cons l ls ih =>
    cases fence with
    | none => exact ih _ _
    | some f =>
      rw [contentsFrom]
      split
      · exact ih _ _
      · refine List.pairwise_cons.2 ⟨?_, ih _ _⟩
        rintro ⟨f', m, l'⟩ he
        obtain ⟨i, rfl, -⟩ := mem_contentsFrom.1 he
        show n < n + 1 + i
        omega

theorem content_iff_mem_contentsFrom {start : Nat} {lines : List Text} {f : Fence} {n : Nat}
    {l : Text} :
    Content start lines f n l ↔ (f, n, l) ∈ contentsFrom none (start + 1) (lines.drop start) := by
  rw [mem_contentsFrom]
  constructor
  · rintro ⟨hlt, hl, hopen, hc⟩
    obtain ⟨i, rfl⟩ : ∃ i, n = start + 1 + i := ⟨n - (start + 1), by omega⟩
    have hi : start + 1 + i - 1 = start + i := by omega
    rw [hi] at hl hopen
    refine ⟨i, rfl, ?_, ?_, hc⟩
    · rw [List.getElem?_drop, hl]
    · rw [← hopen, List.drop_take, Nat.add_sub_cancel_left]
  · rintro ⟨i, rfl, hl, hopen, hc⟩
    have hi : start + 1 + i - 1 = start + i := by omega
    refine ⟨by omega, ?_, ?_, hc⟩
    · rw [hi, ← List.getElem?_drop, hl]
    · rw [hi, ← hopen, List.drop_take, Nat.add_sub_cancel_left]

/-! ## One line of a body -/

section

variable {f : Fence} {l : Text} (n : Nat) (ls : List Text)

/-- A line that opens a fence begins a block. -/
theorem splitBlocks_opens (h : Fence.ofLine? l = some f) :
    splitBlocks (Line.follow n none (l :: ls)) =
      ([], ⟨f, (splitBlocks (Line.follow (n + 1) (some f) ls)).1⟩ ::
        (splitBlocks (Line.follow (n + 1) (some f) ls)).2) := by
  simp [Line.follow_cons, splitBlocks, Role.ofLine, Fence.openAfter, h]

theorem splitBlocks_prose (h : Fence.ofLine? l = none) :
    splitBlocks (Line.follow n none (l :: ls)) =
      ([], (splitBlocks (Line.follow (n + 1) none ls)).2) := by
  simp [Line.follow_cons, splitBlocks, Role.ofLine, Fence.openAfter, h]

theorem splitBlocks_closes (h : Fence.closes f.marks l = true) :
    splitBlocks (Line.follow n (some f) (l :: ls)) =
      ([], (splitBlocks (Line.follow (n + 1) none ls)).2) := by
  simp [Line.follow_cons, splitBlocks, Role.ofLine, Fence.openAfter, h]

theorem splitBlocks_code (h : Fence.closes f.marks l = false) :
    splitBlocks (Line.follow n (some f) (l :: ls)) =
      ((n, l) :: (splitBlocks (Line.follow (n + 1) (some f) ls)).1,
        (splitBlocks (Line.follow (n + 1) (some f) ls)).2) := by
  simp [Line.follow_cons, splitBlocks, Role.ofLine, Fence.openAfter, h]

end

/-! ## Lines of blocks -/

/-- The lines of a block with its fence. -/
def CodeBlock.contents (b : CodeBlock) : List (Fence × Nat × Text) := b.lines.map fun p => (b.fence, p)

/-- The lines of the blocks, those of the block that is open before the first line included, are
the lines inside of fences. -/
theorem flatMap_contents_splitBlocks (fence : Option Fence) (n : Nat) (ls : List Text) :
    ((fence.toList.map fun f => CodeBlock.mk f (splitBlocks (Line.follow n fence ls)).1) ++
      (splitBlocks (Line.follow n fence ls)).2).flatMap CodeBlock.contents =
        contentsFrom fence n ls := by
  induction ls generalizing fence n with
  | nil => cases fence <;> rfl
  | cons l ls ih =>
    cases fence with
    | none =>
      rw [contentsFrom, ← ih, Fence.openAfter]
      cases ho : Fence.ofLine? l with
      | none =>
        rw [splitBlocks_prose n ls ho]
        rfl
      | some f =>
        rw [splitBlocks_opens n ls ho]
        rfl
    | some f =>
      rw [contentsFrom]
      cases hc : Fence.closes f.marks l with
      | true =>
        rw [splitBlocks_closes n ls hc, if_pos rfl, ← ih]
        rfl
      | false =>
        rw [splitBlocks_code n ls hc, if_neg Bool.false_ne_true, ← ih]
        rfl

theorem flatMap_contents_codeBlocks (start : Nat) (lines : List Text) :
    (codeBlocks (Line.ofLines start lines)).flatMap CodeBlock.contents =
      contentsFrom none (start + 1) (lines.drop start) := by
  rw [← flatMap_contents_splitBlocks, Line.ofLines_eq_follow]
  rfl

/-- The lines inside of fences are the lines of the blocks. -/
theorem content_iff_exists_block {start : Nat} {lines : List Text} {f : Fence} {n : Nat}
    {l : Text} :
    Content start lines f n l ↔
      ∃ b ∈ codeBlocks (Line.ofLines start lines), b.fence = f ∧ (n, l) ∈ b.lines := by
  rw [content_iff_mem_contentsFrom, ← flatMap_contents_codeBlocks, List.mem_flatMap]
  refine exists_congr fun b => and_congr_right fun _ => ?_
  rw [CodeBlock.contents, List.mem_map]
  constructor
  · rintro ⟨p, hp, heq⟩
    obtain ⟨rfl, rfl⟩ := Prod.mk.inj heq
    exact ⟨rfl, hp⟩
  · rintro ⟨rfl, hp⟩
    exact ⟨(n, l), hp, rfl⟩

/-- The lines of a block stand above those of the blocks after it. -/
theorem pairwise_codeBlocks (start : Nat) (lines : List Text) :
    (codeBlocks (Line.ofLines start lines)).Pairwise fun b b' =>
      ∀ p ∈ b.lines, ∀ p' ∈ b'.lines, p.1 < p'.1 := by
  have h := pairwise_contentsFrom none (start + 1) (lines.drop start)
  rw [← flatMap_contents_codeBlocks, List.pairwise_flatMap] at h
  refine h.2.imp fun hlt p hp p' hp' => ?_
  exact hlt _ (List.mem_map_of_mem hp) _ (List.mem_map_of_mem hp')

/-! ## Where a block stands -/

/-- Lines with their numbers from `n` on. -/
def numbered : (n : Nat) → List Text → List (Nat × Text)
  | _, [] => []
  | n, l :: ls => (n, l) :: numbered (n + 1) ls

theorem map_snd_numbered (n : Nat) (ls : List Text) : (numbered n ls).map Prod.snd = ls := by
  induction ls generalizing n with
  | nil => rfl
  | cons l ls ih => rw [numbered, List.map_cons, ih]

theorem drop_numbered (k n : Nat) (ls : List Text) :
    (numbered n ls).drop k = numbered (n + k) (ls.drop k) := by
  induction ls generalizing k n with
  | nil => simp [numbered]
  | cons l ls ih =>
    cases k with
    | zero => rfl
    | succ k => rw [numbered, List.drop_succ_cons, List.drop_succ_cons, ih, Nat.add_right_comm]; rfl

theorem numbered_append (n : Nat) (ls ms : List Text) :
    numbered n (ls ++ ms) = numbered n ls ++ numbered (n + ls.length) ms := by
  induction ls generalizing n with
  | nil => rfl
  | cons l ls ih =>
    rw [List.cons_append, numbered, numbered, ih, List.length_cons, Nat.add_assoc, Nat.add_comm 1]
    rfl

theorem mem_numbered {n m : Nat} {ls : List Text} {l : Text} :
    (m, l) ∈ numbered n ls ↔ ∃ i, m = n + i ∧ ls[i]? = some l := by
  induction ls generalizing n with
  | nil => simp [numbered]
  | cons l' ls ih =>
    rw [numbered, List.mem_cons, ← Nat.or_exists_add_one, ih]
    refine or_congr ?_ (exists_congr fun i => ?_)
    · simp [eq_comm]
    · rw [Nat.add_assoc, Nat.add_comm 1 i]
      rfl

/-- A block holds the lines behind line `before` up to line `last`. -/
structure CodeBlock.Spans (b : CodeBlock) (lines : List Text) (before last : Nat) : Prop where
  le : before ≤ last
  le_length : last ≤ lines.length
  lines_eq : b.lines = numbered (before + 1) (slice lines (before + 1, last))

theorem CodeBlock.Spans.mem_lines {b : CodeBlock} {lines : List Text} {before last : Nat}
    (h : b.Spans lines before last) {n : Nat} {l : Text} :
    (n, l) ∈ b.lines ↔ before < n ∧ n ≤ last ∧ lines[n - 1]? = some l := by
  rw [h.lines_eq, mem_numbered]
  constructor
  · rintro ⟨i, rfl, hl⟩
    obtain ⟨hi, -⟩ := List.getElem?_eq_some_iff.1 hl
    rw [length_slice h.le_length] at hi
    have hi' : before + i < last := by omega
    have hnumber : before + 1 + i - 1 = before + i := by omega
    rw [getElem?_slice hi', ← hnumber] at hl
    exact ⟨by omega, by omega, hl⟩
  · rintro ⟨hn, hn', hl⟩
    obtain ⟨i, rfl⟩ : ∃ i, n = before + 1 + i := ⟨n - (before + 1), by omega⟩
    have hnumber : before + 1 + i - 1 = before + i := by omega
    refine ⟨i, rfl, ?_⟩
    rw [getElem?_slice (by omega), ← hnumber, hl]

/-- The block that is open before the first line goes on up to the line that closes it. -/
theorem splitBlocks_follow_fst (f : Fence) (n : Nat) (ls : List Text) :
    (splitBlocks (Line.follow n (some f) ls)).1 =
      numbered n (ls.takeWhile fun l => !Fence.closes f.marks l) := by
  induction ls generalizing n with
  | nil => rfl
  | cons l ls ih =>
    cases hc : Fence.closes f.marks l with
    | true => simp [splitBlocks_closes n ls hc, hc, numbered]
    | false => simp [splitBlocks_code n ls hc, hc, numbered, ih]

/-- The lines of a block follow one another. -/
theorem exists_numbered_of_mem_splitBlocks {fence : Option Fence} {n : Nat} {ls : List Text}
    {b : CodeBlock} (h : b ∈ (splitBlocks (Line.follow n fence ls)).2) :
    ∃ above code rest, ls = above ++ (code ++ rest) ∧
      b.lines = numbered (n + above.length) code := by
  induction ls generalizing fence n with
  | nil => simp [splitBlocks] at h
  | cons l ls ih =>
    -- one more line above the blocks of the other lines
    have hrest {fence' : Option Fence} (hb : b ∈ (splitBlocks (Line.follow (n + 1) fence' ls)).2) :
        ∃ above code rest, l :: ls = above ++ (code ++ rest) ∧
          b.lines = numbered (n + above.length) code := by
      obtain ⟨above, code, rest, rfl, hlines⟩ := ih hb
      refine ⟨l :: above, code, rest, rfl, ?_⟩
      rw [hlines, List.length_cons, Nat.add_assoc, Nat.add_comm 1]
    cases fence with
    | none =>
      cases ho : Fence.ofLine? l with
      | none =>
        rw [splitBlocks_prose n ls ho] at h
        exact hrest h
      | some f =>
        rw [splitBlocks_opens n ls ho] at h
        rcases List.mem_cons.1 h with rfl | h
        · refine ⟨[l], ls.takeWhile fun l => !Fence.closes f.marks l,
            ls.dropWhile fun l => !Fence.closes f.marks l, ?_, ?_⟩
          · rw [List.takeWhile_append_dropWhile]
            rfl
          · exact splitBlocks_follow_fst f (n + 1) ls
        · exact hrest h
    | some f =>
      cases hc : Fence.closes f.marks l with
      | true =>
        rw [splitBlocks_closes n ls hc] at h
        exact hrest h
      | false =>
        rw [splitBlocks_code n ls hc] at h
        exact hrest h

theorem exists_spans_of_mem_codeBlocks {start : Nat} {lines : List Text} {b : CodeBlock}
    (hstart : start ≤ lines.length) (h : b ∈ codeBlocks (Line.ofLines start lines)) :
    ∃ before last, b.Spans lines before last := by
  rw [Line.ofLines_eq_follow] at h
  obtain ⟨above, code, rest, hls, hlines⟩ := exists_numbered_of_mem_splitBlocks h
  have hlength := congrArg List.length hls
  simp only [List.length_drop, List.length_append] at hlength
  refine ⟨start + above.length, start + above.length + code.length, by omega, by omega, ?_⟩
  have hcode : slice lines (start + above.length + 1, start + above.length + code.length) =
      code := by
    show (lines.take _).drop (start + above.length + 1 - 1) = code
    rw [Nat.add_sub_cancel, List.drop_take, ← List.drop_drop, hls, List.drop_left,
      Nat.add_sub_cancel_left, List.take_left]
  rw [hcode, hlines, Nat.add_right_comm]

end ScriptAudit
