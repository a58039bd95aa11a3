import ScriptAudit.Files.Access
import ScriptAudit.Proofs.Fault

/-!
# Failing because of a file

A program may go on after a file could not be opened, and tell of it. Other faults end it.

* `Mild` — an operation that fails at most because of a file.
* `Textual` — an operation that never fails because of a file.
* `Files.mild_node?` — to look whether something is there is mild.
* `Files.eq_of_has_eq_error` — a name that is too long stands in the way of looking, and nothing
  else.
* `Files.mild_readText_iff` — to read a text is mild where the bytes are one.
-/

namespace ScriptAudit

variable {α β : Type} {e : Except Fault α}

/-- Whether a fault is that of a file. -/
def Fault.isFile : Fault → Bool
  | .file _ _ => true
  | _ => false

/-- An operation that answers, or else fails because of a file. -/
def Mild (e : Except Fault α) : Prop := ∀ f, e = .error f → ∃ fault path, f = .file fault path

/-- An operation that does not fail because of a file. -/
def Textual (e : Except Fault α) : Prop := ∀ fault path, e ≠ .error (.file fault path)

/-! ## Mild operations -/

namespace Mild

theorem of_ok (a : α) : Mild (.ok a : Except Fault α) := nofun

theorem of_file (fault : FileFault) (path : Text) :
    Mild (.error (.file fault path) : Except Fault α) := by
  rintro f ⟨⟩
  exact ⟨fault, path, rfl⟩

theorem error_iff {x : Fault} :
    Mild (.error x : Except Fault α) ↔ ∃ fault path, x = .file fault path :=
  ⟨fun h => h x rfl, by rintro ⟨fault, path, rfl⟩; exact of_file fault path⟩

theorem not_error {x : Fault} (h : x.isFile = false) : ¬ Mild (.error x : Except Fault α) := by
  rw [error_iff]
  rintro ⟨fault, path, rfl⟩
  cases h

theorem of_answers (h : Answers e) : Mild e := by
  obtain ⟨a, rfl⟩ := h
  exact of_ok a

/-- Two steps in a row. -/
theorem bind_iff {f : α → Except Fault β} :
    Mild (e >>= f) ↔ Mild e ∧ ∀ a, e = .ok a → Mild (f a) := by
  cases e with
  | error x =>
    have hbind : Mild (.error x >>= f) ↔ Mild (.error x : Except Fault α) :=
      error_iff.trans error_iff.symm
    rw [hbind, and_iff_left]
    rintro a ⟨⟩
  | ok a =>
    constructor
    · intro h
      refine ⟨of_ok a, ?_⟩
      rintro a' ⟨⟩
      exact h
    · rintro ⟨-, h⟩
      exact h a rfl

/-- A step after which nothing can fail. -/
theorem bind_iff_of_forall {f : α → Except Fault β} (h : ∀ a, Answers (f a)) :
    Mild (e >>= f) ↔ Mild e := by
  rw [bind_iff, and_iff_left]
  intro a _
  exact of_answers (h a)

theorem map_iff {f : α → β} : Mild (e.map f) ↔ Mild e := by
  cases e with
  | error x => exact error_iff.trans error_iff.symm
  | ok a => exact iff_of_true (of_ok _) (of_ok a)

end Mild

/-! ## Operations without files -/

namespace Textual

theorem of_ok (a : α) : Textual (.ok a : Except Fault α) := nofun

theorem of_pure (a : α) : Textual (pure a : Except Fault α) := of_ok a

theorem of_error {x : Fault} (h : x.isFile = false) : Textual (.error x : Except Fault α) := by
  rintro fault path ⟨⟩
  cases h

theorem ite {p : Prop} [Decidable p] {e' : Except Fault α} (he : Textual e) (he' : Textual e') :
    Textual (if p then e else e') := by
  split
  · exact he
  · exact he'

theorem bind {f : α → Except Fault β} (he : Textual e) (hf : ∀ a, Textual (f a)) :
    Textual (e >>= f) := by
  cases e with
  | error x =>
    rintro fault path ⟨⟩
    exact he fault path rfl
  | ok a => exact hf a

theorem map {f : α → β} (he : Textual e) : Textual (e.map f) := by
  cases e with
  | error x =>
    rintro fault path ⟨⟩
    exact he fault path rfl
  | ok a => exact of_ok _

theorem mapM {f : β → Except Fault α} (h : ∀ b, Textual (f b)) (bs : List β) :
    Textual (bs.mapM f) := by
  induction bs with
  | nil => exact of_ok []
  | cons b bs ih =>
    rw [List.mapM_cons]
    exact (h b).bind fun _ => ih.bind fun _ => of_pure _

theorem filterM {p : β → Except Fault Bool} (h : ∀ b, Textual (p b)) (bs : List β) :
    Textual (bs.filterM p) := by
  suffices haux : ∀ done, Textual (List.filterAuxM p bs done) from
    (haux []).bind fun _ => of_pure _
  induction bs with
  | nil => exact fun done => of_ok done
  | cons b bs ih => exact fun done => (h b).bind fun _ => ih _

theorem mild_iff (h : Textual e) : Mild e ↔ Answers e := by
  constructor
  · intro hmild
    rw [answers_iff_forall]
    intro f hf
    obtain ⟨fault, path, rfl⟩ := hmild f hf
    exact h fault path hf
  · exact Mild.of_answers

end Textual

/-! ## Access to files -/

/-- What may stand in the way of a walk along a path. -/
theorem Node.visit_eq_error {ancestors : List Node} {node : Node} {parts : List Text}
    {f : FileFault} (h : visit ancestors node parts = .error f) :
    f = .missing ∨ f = .notDirectory ∨ f = .tooLong := by
  induction parts generalizing ancestors node with
  | nil => cases h
  | cons part parts ih =>
    cases node with
    | file _ =>
      cases h
      exact Or.inr (Or.inl rfl)
    | directory entries =>
      unfold visit at h
      dsimp only at h
      split at h
      · exact ih h
      · split at h
        · split at h <;> exact ih h
        · split at h
          · cases h
            exact Or.inr (Or.inr rfl)
          · split at h
            · cases h
              exact Or.inl rfl
            · exact ih h

namespace Files

variable {fs : Files} {p : Path}

theorem node_of_hasNull (h : Path.hasNull p.text = true) : fs.node p = .error .nullInPath :=
  if_pos h

theorem mild_node (h : Path.hasNull p.text = false) : Mild (fs.node p) := by
  rw [node, if_neg (by simp [h])]
  cases fs.nodeFrom fs.current p.text with
  | ok n => exact .of_ok n
  | error fault => exact .of_file fault p.text

/-- It can be told whether something is there, unless the system refuses to look. -/
theorem mild_node? (fs : Files) (p : Path) : Mild (fs.node? p) := by
  cases hnull : Path.hasNull p.text with
  | true =>
    rw [node?, node_of_hasNull hnull]
    exact .of_ok none
  | false =>
    have hmild : Mild (fs.node p) := mild_node hnull
    rw [node?]
    split
    · exact .of_ok _
    · exact .of_ok none
    · exact .of_ok none
    · exact .of_ok none
    · next hf =>
      rw [hf] at hmild
      exact Mild.error_iff.2 (Mild.error_iff.1 hmild)

theorem mild_has (fs : Files) (p : Path) : Mild (fs.has p) :=
  (Mild.bind_iff_of_forall fun _ => answers_pure _).2 (mild_node? fs p)

theorem mild_hasFile (fs : Files) (p : Path) : Mild (fs.hasFile p) :=
  (Mild.bind_iff_of_forall fun _ => answers_pure _).2 (mild_node? fs p)

theorem mild_hasDirectory (fs : Files) (p : Path) : Mild (fs.hasDirectory p) :=
  (Mild.bind_iff_of_forall fun _ => answers_pure _).2 (mild_node? fs p)

/-- The system refuses to look for what has too long a name, and for nothing else. -/
theorem eq_of_has_eq_error {f : Fault} (h : fs.has p = .error f) : f = .file .tooLong p.text := by
  have hnode? : fs.node? p = .error f := by
    rcases bind_eq_error_iff.1 h with h | ⟨_, _, ⟨⟩⟩
    exact h
  cases hnull : Path.hasNull p.text with
  | true =>
    rw [node?, node_of_hasNull hnull] at hnode?
    cases hnode?
  | false =>
    rw [node?, node, if_neg (by simp [hnull])] at hnode?
    cases hfrom : fs.nodeFrom fs.current p.text with
    | ok n =>
      rw [hfrom] at hnode?
      cases hnode?
    | error fault =>
      have hfault : fault = .missing ∨ fault = .notDirectory ∨ fault = .tooLong := by
        unfold nodeFrom at hfrom
        split at hfrom
        · cases hfrom
          exact Or.inl rfl
        · split at hfrom
          · cases hfrom
            exact Or.inr (Or.inr rfl)
          · exact Node.visit_eq_error hfrom
      rw [hfrom] at hnode?
      rcases hfault with rfl | rfl | rfl
      · cases hnode?
      · cases hnode?
      · exact (Except.error.inj hnode?).symm

theorem hasNull_of_has (h : fs.has p = .ok true) : Path.hasNull p.text = false := by
  rw [← Bool.not_eq_true]
  intro hnull
  rw [has, node?, node_of_hasNull hnull] at h
  cases h

theorem node_of_node?_eq_some {n : Node} (h : fs.node? p = .ok (some n)) : fs.node p = .ok n := by
  rw [node?] at h
  split at h
  · next hnode =>
    cases h
    exact hnode
  all_goals cases h

theorem exists_entries_of_hasDirectory (h : fs.hasDirectory p = .ok true) :
    ∃ entries, fs.node p = .ok (.directory entries) := by
  obtain ⟨n?, hn, h⟩ := bind_eq_ok_iff.1 h
  have hdirectory : n?.any Node.isDirectory = true := Except.ok.inj h
  cases n? with
  | none => cases hdirectory
  | some n =>
    cases n with
    | file => cases hdirectory
    | directory entries => exact ⟨entries, node_of_node?_eq_some hn⟩

theorem mild_read (h : Path.hasNull p.text = false) : Mild (fs.read p) := by
  refine Mild.bind_iff.2 ⟨mild_node h, fun n _ => ?_⟩
  cases n with
  | file f => exact .of_ok _
  | directory => exact .of_file _ _

theorem readText_of_read {bytes : Bytes} (h : fs.read p = .ok bytes) : fs.readText p =
    match Utf8.decode bytes with
    | .ok t => .ok (Text.unifyLineEnds t)
    | .error defect => .error (.malformedText defect) := by
  rw [readText, h]
  rfl

/-- A text is read, or there is no file that could be opened, where what is opened is a text. -/
theorem mild_readText_iff : Mild (fs.readText p) ↔
    Path.hasNull p.text = false ∧ ∀ bytes, fs.read p = .ok bytes → Answers (Utf8.decode bytes) := by
  cases hnull : Path.hasNull p.text with
  | true =>
    refine iff_of_false ?_ fun h => Bool.false_ne_true h.1.symm
    rw [readText, read, node_of_hasNull hnull]
    exact Mild.not_error rfl
  | false =>
    have hread : Mild (fs.read p) := mild_read hnull
    cases hbytes : fs.read p with
    | error f =>
      rw [hbytes] at hread
      rw [readText, hbytes]
      refine iff_of_true (Mild.error_iff.2 (Mild.error_iff.1 hread)) ⟨rfl, ?_⟩
      rintro bytes ⟨⟩
    | ok bytes =>
      simp only [readText_of_read hbytes, true_and, Except.ok.injEq, forall_eq']
      cases Utf8.decode bytes with
      | ok t => exact iff_of_true (.of_ok _) (answers_ok t)
      | error defect => exact iff_of_false (Mild.not_error rfl) (not_answers_error defect)

end Files

end ScriptAudit
