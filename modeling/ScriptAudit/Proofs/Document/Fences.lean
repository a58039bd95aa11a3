import ScriptAudit.Proofs.Document.Continuation

/-!
# Lines that open a fence

A line that opens a fence begins a block, which takes the lines below up to the one that closes it.
What is found below is what is found behind that line, as if nothing stood above it.

* `OpensAt` — what a line that opens a fence does to a body (`opensAt_of_ofLine?`).
* `exists_codeBlocks_around` — a line inside of a fence is passed on to its block, and has no other
  effect on blocks and headings.
-/

namespace ScriptAudit

/-! ## Below an open fence -/

/-- The lines that the block of a fence takes. -/
def Fence.blockOf (f : Fence) (ls : List Text) : List Text := ls.takeWhile fun l => !closes f.marks l

section

variable (f : Fence) (n : Nat) (ls : List Text)

/-- The lines below the one that closes a fence, or none. -/
theorem splitBlocks_follow_snd :
    (splitBlocks (Line.follow n (some f) ls)).2 =
      (splitBlocks (Line.follow (n + ((f.blockOf ls).length + 1)) none
        (ls.drop ((f.blockOf ls).length + 1)))).2 := by
  induction ls generalizing n with
  | nil => rfl
  | cons l ls ih =>
    cases hc : Fence.closes f.marks l with
    | true => simp [splitBlocks_closes n ls hc, Fence.blockOf, hc]
    | false =>
      have hblock : f.blockOf (l :: ls) = l :: f.blockOf ls := by simp [Fence.blockOf, hc]
      rw [splitBlocks_code n ls hc, ih, hblock, List.length_cons, List.drop_succ_cons,
        Nat.add_right_comm n 1, Nat.add_assoc n _ 1]

theorem headingsFrom_follow (paragraph : List (Nat × Text)) :
    headingsFrom paragraph (Line.follow n (some f) ls) =
      headingsFrom paragraph (Line.follow (n + ((f.blockOf ls).length + 1)) none
        (ls.drop ((f.blockOf ls).length + 1))) := by
  induction ls generalizing n with
  | nil => rfl
  | cons l ls ih =>
    cases hc : Fence.closes f.marks l with
    | true => simp [Line.follow_cons, Role.ofLine, Fence.openAfter, headingsFrom, Fence.blockOf, hc]
    | false =>
      have hblock : f.blockOf (l :: ls) = l :: f.blockOf ls := by simp [Fence.blockOf, hc]
      have hcode : headingsFrom paragraph (Line.follow n (some f) (l :: ls)) =
          headingsFrom paragraph (Line.follow (n + 1) (some f) ls) := by
        simp [Line.follow_cons, Role.ofLine, Fence.openAfter, headingsFrom, hc]
      rw [hcode, ih, hblock, List.length_cons, List.drop_succ_cons, Nat.add_right_comm n 1,
        Nat.add_assoc n _ 1]

end

/-- A line below an open fence never has the role that it has in the running text. -/
theorem Line.follow_some_eq_iff {f : Fence} {n : Nat} {ls : List Text} :
    follow n (some f) ls = follow n none ls ↔ ls = [] := by
  cases ls with
  | nil => simp
  | cons l ls =>
    refine iff_of_false (fun heq => ?_) (List.cons_ne_nil l ls)
    rw [follow_cons, follow_cons] at heq
    have hrole : Role.ofLine (some f) l = Role.ofLine none l :=
      congrArg Line.role (List.cons.inj heq).1
    rw [Role.ofLine, Role.ofLine] at hrole
    split at hrole <;> split at hrole <;> cases hrole

theorem Line.length_ofLines (start : Nat) (lines : List Text) :
    (ofLines start lines).length = lines.length - start := by
  have hfollow (n : Nat) (fence : Option Fence) (ls : List Text) :
      (follow n fence ls).length = ls.length := by
    induction ls generalizing n fence with
    | nil => rfl
    | cons l ls ih => rw [follow_cons, List.length_cons, ih, List.length_cons]
  rw [ofLines_eq_follow, hfollow, List.length_drop]

/-! ## A line that opens a fence -/

/-- The number of the line that closes the block of a fence, which is opened on line `n`. -/
def Fence.lastOf (f : Fence) (n : Nat) (below : List Text) : Nat := n + ((f.blockOf below).length + 1)

/-- What a line that opens the fence `f` does to a body that begins behind line `start`: the lines
`above` it stay what they are, its block takes the first lines `below`, and reading goes on behind the
line that closes it. -/
structure OpensAt (start : Nat) (above : List Text) (l : Text) (f : Fence) (below : List Text) :
    Prop where
  getElem?_eq : (Line.ofLines start (above ++ l :: below))[above.length - start]? =
    some ⟨above.length + 1, l, .opens f⟩
  headings_eq : headings (Line.ofLines start (above ++ l :: below)) =
    headings (Line.ofLines start above) ++
      headings (Line.ofLines (f.lastOf (above.length + 1) below) (above ++ l :: below))
  codeBlocks_eq : codeBlocks (Line.ofLines start (above ++ l :: below)) =
    codeBlocks (Line.ofLines start above) ++
      ⟨f, numbered (above.length + 2) (f.blockOf below)⟩ ::
        codeBlocks (Line.ofLines (f.lastOf (above.length + 1) below) (above ++ l :: below))
  /-- The lines below it are not read as they are below a line of the running text. -/
  below_iff : ∀ l', Fence.ofLine? l' = none →
    ((Line.ofLines start (above ++ l :: below)).drop (above.length - start + 1) =
      (Line.ofLines start (above ++ l' :: below)).drop (above.length - start + 1) ↔ below = [])

section

variable {start : Nat} {above : List Text} (hstart : start ≤ above.length)
  (hopen : (above.drop start).foldl Fence.openAfter none = none)
include hstart hopen

theorem Line.ofLines_append_cons (l : Text) (below : List Text) :
    Line.ofLines start (above ++ l :: below) =
      Line.ofLines start above ++ ⟨above.length + 1, l, Role.ofLine none l⟩ ::
        Line.follow (above.length + 2) (Fence.ofLine? l) below := by
  have hlength : start + 1 + (above.drop start).length = above.length + 1 := by
    rw [List.length_drop]
    omega
  rw [Line.ofLines_eq_follow, List.drop_append_of_le_length hstart, Line.follow_append, hopen, hlength,
    Line.follow_cons, Line.ofLines_eq_follow, Fence.openAfter]

theorem opensAt_of_ofLine? {l : Text} {f : Fence} (hl : Fence.ofLine? l = some f)
    (below : List Text) : OpensAt start above l f below := by
  have hlines : Line.ofLines start (above ++ l :: below) =
      Line.ofLines start above ++ ⟨above.length + 1, l, .opens f⟩ ::
        Line.follow (above.length + 2) (some f) below := by
    rw [Line.ofLines_append_cons hstart hopen, hl, Role.ofLine, hl]
  have hbehind : Line.ofLines (f.lastOf (above.length + 1) below) (above ++ l :: below) =
      Line.follow (above.length + 2 + ((f.blockOf below).length + 1)) none
        (below.drop ((f.blockOf below).length + 1)) := by
    have hdrop : (above ++ l :: below).drop (above.length + 1 + ((f.blockOf below).length + 1)) =
        below.drop ((f.blockOf below).length + 1) := by
      rw [Nat.add_assoc, Nat.add_comm 1, List.drop_length_add_append, List.drop_succ_cons]
    rw [Line.ofLines_eq_follow, Fence.lastOf, hdrop, Nat.add_right_comm]
  have hlength := Line.length_ofLines start above
  refine ⟨?_, ?_, ?_, fun l' hl' => ?_⟩
  · rw [hlines, ← hlength, List.getElem?_append_right (Nat.le_refl _), Nat.sub_self,
      List.getElem?_cons_zero]
  · rw [hbehind, hlines, headings, headingsFrom_append fun _ _ => by rw [headingsFrom],
      headingsFrom_follow]
    rfl
  · rw [hbehind, hlines, codeBlocks, splitBlocks_append (by simp [splitBlocks])]
    simp only [splitBlocks, splitBlocks_follow_fst, splitBlocks_follow_snd]
    rfl
  · rw [hlines, Line.ofLines_append_cons hstart hopen, hl', ← hlength,
      List.drop_length_add_append, List.drop_length_add_append]
    exact Line.follow_some_eq_iff

end

/-! ## A line inside of a fence -/

theorem Fence.blockOf_append_cons {f : Fence} {pre : List Text} {l : Text}
    (hpre : ∀ k ∈ pre, closes f.marks k = false) (hl : closes f.marks l = false) (below : List Text) :
    f.blockOf (pre ++ l :: below) = pre ++ l :: f.blockOf below := by
  have hall : ∀ k ∈ pre, (!closes f.marks k) = true := fun k hk => by rw [hpre k hk]; rfl
  rw [blockOf, List.takeWhile_append_of_pos hall, List.takeWhile_cons_of_pos (by rw [hl]; rfl), blockOf]

/-- **A line inside of a fence** is handed on to its block, whatever it says, and has no other effect on
blocks and headings. -/
theorem exists_codeBlocks_around {start : Nat} {above : List Text} {f : Fence}
    (hstart : start ≤ above.length)
    (hopen : (above.drop start).foldl Fence.openAfter none = some f) (below : List Text) :
    ∃ front outer pre back hs, above = outer ++ pre ∧ ∀ l, Fence.closes f.marks l = false →
      codeBlocks (Line.ofLines start (above ++ l :: below)) =
          front ++ ⟨f, numbered (outer.length + 1) (pre ++ l :: f.blockOf below)⟩ :: back ∧
        headings (Line.ofLines start (above ++ l :: below)) = hs := by
  obtain ⟨outer, o, pre, hdrop, hnone, ho, hpre⟩ := Fence.exists_opening hopen
  obtain ⟨top, htop, rfl⟩ : ∃ top : List Text, top.length = start ∧ above = top ++ (outer ++ o :: pre) :=
    ⟨above.take start, List.length_take_of_le hstart, by rw [← hdrop, List.take_append_drop]⟩
  subst htop
  generalize hfront : top ++ outer = front
  have hlines (l : Text) :
      top ++ (outer ++ o :: pre) ++ l :: below = front ++ o :: (pre ++ l :: below) := by
    simp [← hfront]
  have hstart' : top.length ≤ front.length := by simp [← hfront]
  have hnone' : (front.drop top.length).foldl Fence.openAfter none = none := by
    rw [← hfront, List.drop_left, hnone]
  -- what stands behind the block begins on the same line, whatever the line says
  let behind := Line.follow (front.length + (pre.length + (f.blockOf below).length) + 4) none
    (below.drop ((f.blockOf below).length + 1))
  have hbehind {l : Text} (hl : Fence.closes f.marks l = false) :
      Line.ofLines (f.lastOf (front.length + 1) (pre ++ l :: below)) (front ++ o :: (pre ++ l :: below)) =
        behind := by
    have hlast : f.lastOf (front.length + 1) (pre ++ l :: below) =
        front.length + (pre.length + ((f.blockOf below).length + 1 + 1) + 1) := by
      rw [Fence.lastOf, Fence.blockOf_append_cons hpre hl, List.length_append, List.length_cons]
      omega
    have hnumber : front.length + (pre.length + ((f.blockOf below).length + 1 + 1) + 1) + 1 =
        front.length + (pre.length + (f.blockOf below).length) + 4 := by
      omega
    rw [Line.ofLines_eq_follow, hlast, hnumber, List.drop_length_add_append, List.drop_succ_cons,
      List.drop_length_add_append, List.drop_succ_cons]
  refine ⟨codeBlocks (Line.ofLines top.length front), front ++ [o], pre, codeBlocks behind,
    headings (Line.ofLines top.length front) ++ headings behind, by simp [← hfront], fun l hl => ?_⟩
  have hopens := opensAt_of_ofLine? hstart' hnone' ho (pre ++ l :: below)
  rw [hlines, hopens.codeBlocks_eq, hopens.headings_eq, hbehind hl,
    Fence.blockOf_append_cons hpre hl, List.length_append, List.length_singleton]
  exact ⟨rfl, rfl⟩

theorem exists_scriptBlocks_around {start : Nat} {above : List Text} {f : Fence}
    (hstart : start ≤ above.length)
    (hopen : (above.drop start).foldl Fence.openAfter none = some f) (hf : f.opensScript = true)
    (below : List Text) :
    ∃ front outer pre back hs, above = outer ++ pre ∧ ∀ l, Fence.closes f.marks l = false →
      scriptBlocks (Line.ofLines start (above ++ l :: below)) =
          front ++ ⟨f, numbered (outer.length + 1) (pre ++ l :: f.blockOf below)⟩ :: back ∧
        headings (Line.ofLines start (above ++ l :: below)) = hs := by
  obtain ⟨front, outer, pre, back, hs, habove, haround⟩ := exists_codeBlocks_around hstart hopen below
  refine ⟨front.filter (·.fence.opensScript), outer, pre, back.filter (·.fence.opensScript), hs, habove,
    fun l hl => ⟨?_, (haround l hl).2⟩⟩
  rw [scriptBlocks, (haround l hl).1, List.filter_append, List.filter_cons, if_pos hf]

end ScriptAudit
