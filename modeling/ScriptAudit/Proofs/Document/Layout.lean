import ScriptAudit.Document.Layout

/-!
# Lines one by one

`Line.ofLines` numbers the lines of a body and gives each its role. Here the same is said of one
line: `Fence.openAfter` is the fence that is open after it, `Role.ofLine` its role, and
`Line.follow_cons` puts the two together. Proofs about blocks and headings go along `Line.follow`.
What they say of ranges of lines is said through `slice`.
-/

namespace ScriptAudit

/-- The fence that is open after a line, given the one that is open before it. -/
def Fence.openAfter : Option Fence → Text → Option Fence
  | some f, l => if closes f.marks l then none else some f
  | none, l => ofLine? l

/-- The role of a line, given the fence that is open before it. -/
def Role.ofLine : Option Fence → Text → Role
  | some f, l => if Fence.closes f.marks l then .closes else .code
  | none, l =>
    match Fence.ofLine? l with
    | some f => .opens f
    | none => .prose

theorem Role.ofLines_cons (fence : Option Fence) (l : Text) (ls : List Text) :
    ofLines (fence.map Fence.marks) (l :: ls) =
      ofLine fence l :: ofLines ((Fence.openAfter fence l).map Fence.marks) ls := by
  cases fence with
  | none =>
    rw [Option.map_none, ofLines, ofLine, Fence.openAfter]
    cases Fence.ofLine? l <;> rfl
  | some f =>
    rw [Option.map_some, ofLines, ofLine, Fence.openAfter]
    split <;> rfl

namespace Line

/-- Lines numbered from `n` on, with their roles after the given open fence. -/
def follow (n : Nat) (fence : Option Fence) (ls : List Text) : List Line :=
  (ls.zip (Role.ofLines (fence.map Fence.marks) ls)).mapIdx fun i (t, r) => ⟨n + i, t, r⟩

theorem ofLines_eq_follow (start : Nat) (lines : List Text) :
    ofLines start lines = follow (start + 1) none (lines.drop start) := rfl

@[simp] theorem follow_nil (n : Nat) (fence : Option Fence) : follow n fence [] = [] := rfl

theorem follow_cons (n : Nat) (fence : Option Fence) (l : Text) (ls : List Text) :
    follow n fence (l :: ls) =
      ⟨n, l, Role.ofLine fence l⟩ :: follow (n + 1) (Fence.openAfter fence l) ls := by
  rw [follow, Role.ofLines_cons, List.zip_cons_cons, List.mapIdx_cons, follow]
  simp [Nat.add_comm, Nat.add_left_comm]

end Line

/-! ## Ranges of lines -/

/-- The lines of a range, given by its first and its last line. -/
def slice (lines : List Text) (r : Nat × Nat) : List Text := (lines.take r.2).drop (r.1 - 1)

section

variable {lines : List Text} {before last : Nat}

theorem slice_eq_take_drop (lines : List Text) (before last : Nat) :
    slice lines (before + 1, last) = (lines.drop before).take (last - before) := by
  rw [slice, Nat.add_sub_cancel, List.drop_take]

theorem slice_between (front mid back : List Text) :
    slice (front ++ (mid ++ back)) (front.length + 1, front.length + mid.length) = mid := by
  rw [slice_eq_take_drop, List.drop_left, Nat.add_sub_cancel_left, List.take_left]

theorem length_slice (h : last ≤ lines.length) :
    (slice lines (before + 1, last)).length = last - before := by
  rw [slice, List.length_drop, List.length_take, Nat.min_eq_left h, Nat.add_sub_cancel]

theorem getElem?_slice {i : Nat} (h : before + i < last) :
    (slice lines (before + 1, last))[i]? = lines[before + i]? := by
  rw [slice_eq_take_drop, List.getElem?_take_of_lt (by omega), List.getElem?_drop]

theorem slice_eq_cons (h : before < last) {l : Text} (hl : lines[before]? = some l) :
    slice lines (before + 1, last) = l :: slice lines (before + 1 + 1, last) := by
  have hdrop : lines.drop before = l :: lines.drop (before + 1) := by
    obtain ⟨hlt, rfl⟩ := List.getElem?_eq_some_iff.1 hl
    exact List.drop_eq_getElem_cons hlt
  obtain ⟨k, rfl⟩ : ∃ k, last = before + 1 + k := ⟨last - (before + 1), by omega⟩
  have hk : before + 1 + k - before = k + 1 := by omega
  rw [slice_eq_take_drop, slice_eq_take_drop, hdrop, hk, List.take_succ_cons,
    Nat.add_sub_cancel_left]

/-- A range cut in two. -/
theorem slice_eq_append {front back : List Text}
    (h : slice lines (before + 1, last) = front ++ back) :
    slice lines (before + 1, before + front.length) = front ∧
      slice lines (before + front.length + 1, last) = back := by
  rw [slice_eq_take_drop] at h
  have hlength := congrArg List.length h
  simp only [List.length_take, List.length_drop, List.length_append] at hlength
  constructor
  · have hfront := congrArg (List.take front.length) h
    rw [List.take_take, Nat.min_eq_left (by omega), List.take_left] at hfront
    rw [slice_eq_take_drop, Nat.add_sub_cancel_left, hfront]
  · have hback := congrArg (List.drop front.length) h
    rw [List.drop_take, List.drop_drop, List.drop_left] at hback
    rw [slice_eq_take_drop, ← hback, Nat.sub_add_eq]

end

end ScriptAudit
