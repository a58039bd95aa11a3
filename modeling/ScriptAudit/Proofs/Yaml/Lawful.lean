import ScriptAudit.Proofs.Files.Opening
import ScriptAudit.Proofs.Yaml.Level
import ScriptAudit.Yaml.Standard

/-!
# The standard loader is lawful

The standard loader looks at no file, and so no fault of it is that of a file. Its faults are those
of single texts, and each of the types that have such texts is looked at on its own.
-/

namespace ScriptAudit.Yaml

namespace Value

theorem textual_signed (t : Text) : Textual (signed t) := .ite (.of_error rfl) (.of_ok _)

theorem textual_inBase (base : Nat) (t : Text) : Textual (inBase base t) := by
  rw [inBase]
  cases Numeral.inBase? base t with
  | some i => exact .of_ok i
  | none => exact .of_error rfl

theorem textual_decimal (t : Text) : Textual (decimal t) := by
  rw [decimal]
  split
  · exact .of_ok _
  · exact .of_error rfl
  · exact .of_error rfl

theorem textual_fraction (t : Text) : Textual (fraction t) := by
  rw [fraction]
  cases Numeral.float? t with
  | some x => exact .of_ok x
  | none => exact .of_error rfl

theorem textual_boolOf (t : Text) : Textual (boolOf t) :=
  .ite (.of_ok _) (.ite (.of_ok _) (.of_error rfl))

theorem textual_intOf (t : Text) : Textual (intOf t) := by
  refine (textual_signed _).bind fun (negative, t) => ?_
  dsimp only
  split
  · exact .of_error rfl
  · exact .of_ok _
  · exact (textual_inBase 2 _).bind fun _ => .of_pure _
  · exact (textual_inBase 16 _).bind fun _ => .of_pure _
  · exact (textual_inBase 8 _).bind fun _ => .of_pure _
  · split
    · exact (Textual.mapM textual_decimal _).bind fun _ => .of_pure _
    · exact (textual_decimal _).bind fun _ => .of_pure _

theorem textual_sexagesimal (base : Nat) (sum : Float) (ds : List Float) :
    Textual (sexagesimal base sum ds) := by
  induction ds generalizing base sum with
  | nil => exact .of_ok sum
  | cons d ds ih =>
    rw [sexagesimal]
    cases Binary64.ofInt? base with
    | some b => exact ih _ _
    | none => exact .of_error rfl

theorem textual_floatOf (t : Text) : Textual (floatOf t) := by
  refine (textual_signed _).bind fun (negative, t) => ?_
  dsimp only
  refine .ite (.of_ok _) (.ite (.of_ok _) (.ite ?_ ?_))
  · exact (Textual.mapM textual_fraction _).bind fun _ =>
      (textual_sexagesimal _ _ _).bind fun _ => .of_pure _
  · exact (textual_fraction _).bind fun _ => .of_pure _

theorem textual_value (s : Timestamp) : Textual s.value := by
  have hdate : Textual (Timestamp.checkDate s.date) :=
    .ite (.of_error rfl) (.ite (.of_error rfl) (.ite (.of_error rfl) (.of_ok ())))
  rw [Timestamp.value]
  cases s.time with
  | none => exact hdate.bind fun _ => .of_pure _
  | some t =>
    have hoffset : Textual (Timestamp.checkOffset t.offset) := by
      cases t.offset with
      | none => exact .of_ok ()
      | some m => exact .ite (.of_error rfl) (.of_ok ())
    have htime : Textual (Timestamp.checkTime t) :=
      .ite (.of_error rfl) (.ite (.of_error rfl) (.ite (.of_error rfl) (.of_ok ())))
    exact hoffset.bind fun _ => hdate.bind fun _ => htime.bind fun _ => .of_pure _

theorem textual_timestampOf (t : Text) : Textual (timestampOf t) := by
  simp only [timestampOf]
  split
  · exact .of_error rfl
  · refine (textual_value _).bind fun r => ?_
    cases r with
    | inl d => exact .of_ok _
    | inr m => exact .of_ok _

theorem Unfit.ne_file {t : Text} {tag : Tag} {f : Fault} (h : Unfit t tag f) (fault : FileFault)
    (path : Text) : f ≠ .file fault path := by
  rintro rfl
  cases h with
  | bool h => exact textual_boolOf t fault path h
  | int h => exact textual_intOf t fault path h
  | float h => exact textual_floatOf t fault path h
  | timestamp h => exact textual_timestampOf t fault path h

end Value

theorem load_eq_fault {t : Text} {f : Fault} (h : load t = .error (.fault f)) :
    ∃ n : Node, n.Refused (.fault f) := by
  rw [load] at h
  split at h
  · cases h
  · cases h
  · next n _ => exact ⟨n, Node.value?_eq_error_iff.1 h⟩

instance : LawfulLoader where
  load_ne_file t fault path h := by
    obtain ⟨n, hn⟩ := load_eq_fault h
    obtain ⟨k, m, -, hfault | ⟨u, -, hunfit⟩⟩ := Node.exists_unfit_of_refused hn
    · cases hfault
    · exact hunfit.ne_file fault path rfl

end ScriptAudit.Yaml
