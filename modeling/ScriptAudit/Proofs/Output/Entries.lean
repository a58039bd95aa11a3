import ScriptAudit.Output.Statistics
import ScriptAudit.Proofs.Fault
import ScriptAudit.Proofs.Number.Range

/-!
# Entries of the statistics

`Statistics.read` reads the entries of an array in order, and the first entry that is refused
decides for all of them. An entry that is not well formed empties the statistics
(`read_of_malformed`); one with a number out of range is a fault (`read_eq_error_iff`), and
`OutOfRange` says which entries these are: an infinite count, or a whole number of milliseconds
beyond the floating-point numbers.
-/

namespace ScriptAudit.Statistics

variable {raw : Text} {items : List Json} {fields : List (Text × Json)} {f : Fault}

/-! ## The first refusal -/

/-- The entries of the array that ends the output; none when there is no well-formed array. -/
def entries (raw : Text) : List Json :=
  match (array? raw).bind Json.read? with
  | some (.arr items) => items
  | _ => []

/-- Whether this is why the first entry that is not read is refused. -/
def Refused (items : List Json) (why : Refusal) : Prop :=
  ∃ front item back, items = front ++ item :: back ∧ (∀ i ∈ front, Answers (entry i)) ∧
    entry item = .error why

/-- What the statistics come to when the entries have been read. -/
def settle : Except Refusal (List ServerCall) → Except Fault (List ServerCall)
  | .ok calls => .ok calls
  | .error .malformed => .ok []
  | .error (.fault f) => .error f

theorem read_eq_settle (raw : Text) : read raw = settle ((entries raw).mapM entry) := by
  rw [read, entries]
  cases (array? raw).bind Json.read? with
  | none => rfl
  | some v => cases v <;> rfl

/-- The statistics are at fault with the first entry that is refused. -/
theorem read_eq_error_iff : read raw = .error f ↔ Refused (entries raw) (.fault f) := by
  rw [read_eq_settle, Refused, ← mapM_eq_error_iff]
  rcases (entries raw).mapM entry with (_ | _) | _ <;> simp [settle]

/-- There are no statistics when the first entry that is refused is not well formed. -/
theorem read_of_malformed (h : Refused (entries raw) .malformed) : read raw = .ok [] := by
  rw [read_eq_settle, mapM_eq_error_iff.2 h]
  rfl

/-- There are no statistics, if there is no fault, when any entry is not read. -/
theorem read_of_not_answers {item : Json} (hmem : item ∈ entries raw)
    (hitem : ¬ Answers (entry item)) (h : Answers (read raw)) : read raw = .ok [] := by
  have hitems : ¬ Answers ((entries raw).mapM entry) :=
    fun hall => hitem (answers_mapM_iff.1 hall item hmem)
  obtain ⟨_ | f, hrefused⟩ := not_answers_iff.1 hitems
  · exact read_of_malformed (mapM_eq_error_iff.1 hrefused)
  · rw [read_eq_error_iff.2 (mapM_eq_error_iff.1 hrefused)] at h
    exact absurd h (not_answers_error f)

/-! ## Numbers out of range -/

/-- Whether a value is an infinity. -/
def Infinite (v : Json) : Prop :=
  ∃ x negative, v = .num (.float x) ∧ Binary64.decode x = .infinite negative

/-- Whether a value is an integer without a nearest floating-point number. -/
def Huge (v : Json) : Prop := ∃ i : Int, v = .num (.int i) ∧ Binary64.limit ≤ i.natAbs

theorem truncated_eq_fault_iff {x : Float} : truncated x = .error (.fault f) ↔
    f = .infiniteCount ∧ ∃ negative, Binary64.decode x = .infinite negative := by
  rw [truncated]
  cases Binary64.decode x <;> simp [eq_comm]

theorem intOf_eq_fault_iff {v : Json} :
    intOf v = .error (.fault f) ↔ f = .infiniteCount ∧ Infinite v := by
  match v with
  | .num (.float x) => simp [intOf, truncated_eq_fault_iff, Infinite]
  | .num (.int _) | .null | .bool _ | .arr _ | .obj _ => simp [intOf, Infinite]
  | .str t => cases h : Numeral.int? t <;> simp [intOf, Infinite, h, Except.mapError]

theorem floatOf_eq_fault_iff {v : Json} :
    floatOf v = .error (.fault f) ↔ f = .integerRange ∧ Huge v := by
  match v with
  | .num (.int i) =>
    have hrange := Binary64.ofRatio?_eq_none_iff (i < 0) i.natAbs Nat.one_pos
    rw [Nat.mul_one] at hrange
    simp only [floatOf, Number.toFloat?, Binary64.ofInt?, Huge]
    cases h : Binary64.ofRatio? (i < 0) i.natAbs 1 with
    | none => simp [← hrange, h, eq_comm]
    | some x => simp [← hrange, h]
  | .num (.float x) => simp [floatOf, Number.toFloat?, Huge]
  | .null | .bool _ | .arr _ | .obj _ => simp [floatOf, Huge]
  | .str t => cases h : Numeral.float? t <;> simp [floatOf, Huge, h]

/-! ## Fields of an entry -/

theorem required_eq_ok_iff {key : String} {v : Json} :
    required key fields = .ok v ↔ Json.get? key fields = some v := by
  rw [required]
  cases Json.get? key fields <;> simp

theorem required_ne_fault (key : String) : required key fields ≠ .error (.fault f) := by
  rw [required]
  cases Json.get? key fields <;> simp

/-- The fields with milliseconds, in the order in which they are read. -/
def measures : List String := ["Avg", "Max", "Min"]

/-- Whether an entry is at fault: the fields are read in order, and the first one out of range comes
after fields that are read. -/
inductive OutOfRange (fields : List (Text × Json)) : Fault → Prop
  /-- The count is infinite. -/
  | count {v : Json} (url : (Json.get? "Url" fields).isSome)
      (given : Json.get? "Count" fields = some v) (infinite : Infinite v) :
      OutOfRange fields .infiniteCount
  /-- A time in milliseconds is beyond the floating-point numbers. -/
  | measure (before : List String) {after : List String} {key : String} {v : Json}
      (url : (Json.get? "Url" fields).isSome)
      (count : ∃ u, Json.get? "Count" fields = some u ∧ Answers (intOf u))
      (order : measures = before ++ key :: after)
      (read : ∀ k ∈ before, ∃ u, Json.get? k fields = some u ∧ Answers (floatOf u))
      (given : Json.get? key fields = some v) (huge : Huge v) :
      OutOfRange fields .integerRange

/-- A field is at fault, or it is read and what follows is at fault. -/
theorem field_eq_fault_iff {α β : Type} {key : String} {read : Json → Except Refusal α}
    {next : α → Except Refusal β} :
    (required key fields >>= fun v => read v >>= next) = .error (.fault f) ↔
      ∃ v, Json.get? key fields = some v ∧
        (read v = .error (.fault f) ∨ ∃ a, read v = .ok a ∧ next a = .error (.fault f)) := by
  simp only [bind_eq_error_iff, required_eq_ok_iff, required_ne_fault, false_or]

theorem entry_obj_eq_fault_iff : entry (.obj fields) = .error (.fault f) ↔ OutOfRange fields f := by
  rw [entry, bind_eq_error_iff]
  simp only [required_eq_ok_iff, required_ne_fault, false_or, field_eq_fault_iff]
  constructor
  · rintro ⟨u, hu, c, hc, hcase⟩
    have hurl := Option.isSome_of_eq_some hu
    rcases hcase with hcount | ⟨n, hn, a, ha, haverage | ⟨x, hx, l, hl, hlongest |
      ⟨y, hy, s, hs, hshortest | ⟨_, _, hend⟩⟩⟩⟩
    · obtain ⟨rfl, hinfinite⟩ := intOf_eq_fault_iff.1 hcount
      exact .count hurl hc hinfinite
    · obtain ⟨rfl, hhuge⟩ := floatOf_eq_fault_iff.1 haverage
      exact .measure [] hurl ⟨c, hc, n, hn⟩ rfl (by simp) ha hhuge
    · obtain ⟨rfl, hhuge⟩ := floatOf_eq_fault_iff.1 hlongest
      refine .measure ["Avg"] hurl ⟨c, hc, n, hn⟩ rfl ?_ hl hhuge
      exact List.forall_mem_singleton.2 ⟨a, ha, x, hx⟩
    · obtain ⟨rfl, hhuge⟩ := floatOf_eq_fault_iff.1 hshortest
      refine .measure ["Avg", "Max"] hurl ⟨c, hc, n, hn⟩ rfl ?_ hs hhuge
      exact List.forall_mem_cons.2 ⟨⟨a, ha, x, hx⟩, List.forall_mem_singleton.2 ⟨l, hl, y, hy⟩⟩
    · cases hend
  · rintro (⟨hu, hc, hinfinite⟩ | ⟨before, hu, ⟨c, hc, n, hn⟩, horder, hread, hgiven, hhuge⟩)
    · obtain ⟨u, hu⟩ := Option.isSome_iff_exists.1 hu
      exact ⟨u, hu, _, hc, Or.inl (intOf_eq_fault_iff.2 ⟨rfl, hinfinite⟩)⟩
    · obtain ⟨u, hu⟩ := Option.isSome_iff_exists.1 hu
      have hfault := floatOf_eq_fault_iff.2 ⟨rfl, hhuge⟩
      refine ⟨u, hu, c, hc, Or.inr ⟨n, hn, ?_⟩⟩
      -- the field out of range is the first, the second or the third of the three
      rcases List.cons_eq_append_iff.1 horder with ⟨rfl, hkey⟩ | ⟨_, rfl, hmax⟩
      · obtain ⟨rfl, -⟩ := List.cons.inj hkey
        exact ⟨_, hgiven, Or.inl hfault⟩
      obtain ⟨a, ha, x, hx⟩ := hread "Avg" (by simp)
      refine ⟨a, ha, Or.inr ⟨x, hx, ?_⟩⟩
      rcases List.cons_eq_append_iff.1 hmax with ⟨rfl, hkey⟩ | ⟨_, rfl, hmin⟩
      · obtain ⟨rfl, -⟩ := List.cons.inj hkey
        exact ⟨_, hgiven, Or.inl hfault⟩
      obtain ⟨l, hl, y, hy⟩ := hread "Max" (by simp)
      refine ⟨l, hl, Or.inr ⟨y, hy, ?_⟩⟩
      rcases List.cons_eq_append_iff.1 hmin with ⟨rfl, hkey⟩ | ⟨_, rfl, hend⟩
      · obtain ⟨rfl, -⟩ := List.cons.inj hkey
        exact ⟨_, hgiven, Or.inl hfault⟩
      · simp at hend

/-- An entry is at fault exactly if it is an object with a number out of range. -/
theorem entry_eq_fault_iff {item : Json} :
    entry item = .error (.fault f) ↔ ∃ fields, item = .obj fields ∧ OutOfRange fields f := by
  cases item with
  | obj fields => simp [entry_obj_eq_fault_iff]
  | null | bool | num | str | arr => simp [entry]

/-- Whether the first entry that is not read has a number out of range. -/
def Overruns (items : List Json) (f : Fault) : Prop :=
  ∃ front fields back, items = front ++ .obj fields :: back ∧ (∀ i ∈ front, Answers (entry i)) ∧
    OutOfRange fields f

theorem refused_fault_iff : Refused items (.fault f) ↔ Overruns items f := by
  simp only [Refused, Overruns, entry_eq_fault_iff]
  constructor
  · rintro ⟨front, _, back, hitems, hfront, fields, rfl, hrange⟩
    exact ⟨front, fields, back, hitems, hfront, hrange⟩
  · rintro ⟨front, fields, back, hitems, hfront, hrange⟩
    exact ⟨front, .obj fields, back, hitems, hfront, fields, rfl, hrange⟩

/-- The statistics are at fault exactly when the first entry that is not read has a number out of
range. -/
theorem read_eq_error_iff_overruns : read raw = .error f ↔ Overruns (entries raw) f :=
  read_eq_error_iff.trans refused_fault_iff

theorem answers_read_iff : Answers (read raw) ↔ ∀ f, ¬ Overruns (entries raw) f := by
  rw [answers_iff_forall]
  exact forall_congr' fun f => not_congr read_eq_error_iff_overruns

end ScriptAudit.Statistics
