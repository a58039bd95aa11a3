import Mathlib.Data.List.Basic
import ScriptAudit.Check.Review
import ScriptAudit.Proofs.Fault
import ScriptAudit.Proofs.Trace.Line

/-!
# Codes of issues

The code of an issue is made of letters and a number, and the letters name the check that the issue
comes from: each check gives only issues with its own letters (`coded_of_metadata`, `coded_phases`
and so on). `Check.withCode` picks the issues with one code. The issues of a command are on the line
of the command (`coded_command`), those of the commands as a whole on no line.
-/

namespace ScriptAudit

/-- Whether the code of an issue has the given letters. -/
def Issue.Coded (letters : Text) (i : Issue) : Prop :=
  ∃ n, i.code = letters ++ "00".toList ++ Text.ofNat n

/-- The letters that a code begins with. -/
def Issue.family (code : Text) : Text := code.takeWhile Char.isAlpha

namespace Issue.Coded

variable {letters : Text} {i : Issue} (hletters : ∀ c ∈ letters, c.isAlpha = true)

include hletters

theorem family_eq (h : i.Coded letters) : family i.code = letters := by
  obtain ⟨n, hn⟩ := h
  rw [hn, family, List.append_assoc]
  exact Text.takeWhile_append_of_head? hletters (by simp)

theorem isAlphanum_of_mem (h : i.Coded letters) : ∀ c ∈ i.code, c.isAlphanum = true := by
  obtain ⟨n, hn⟩ := h
  intro c hc
  rw [hn, List.append_assoc, List.mem_append, List.mem_append] at hc
  rw [Char.isAlphanum, Bool.or_eq_true]
  rcases hc with hc | hc | hc
  · exact Or.inl (hletters c hc)
  · obtain rfl : c = '0' := by simpa using hc
    exact Or.inr rfl
  · exact Or.inr (Trace.isDigit_of_mem_ofNat hc)

end Issue.Coded

namespace Check

/-! ## Issues with a code -/

/-- The issues with a code. -/
def withCode (code : Text) (is : List Issue) : List Issue := is.filter (·.code = code)

theorem withCode_of_forall {c : Text} {is : List Issue} (h : ∀ i ∈ is, i.code = c) (code : Text) :
    withCode code is = if c = code then is else [] := by
  split
  · next hcode => exact List.filter_eq_self.2 fun i hi => by simp [h i hi, hcode]
  · next hcode => exact List.filter_eq_nil_iff.2 fun i hi => by simp [h i hi, hcode]

/-! ## Issues under a condition -/

section

variable {P : Issue → Prop} {p : Prop} [Decidable p] {i : Issue}

theorem forall_mem_when (h : P i) : ∀ j ∈ if p then [i] else [], P j := by
  split
  · exact List.forall_mem_singleton.2 h
  · exact nofun

theorem forall_mem_unless (h : P i) : ∀ j ∈ if p then [] else [i], P j := by
  split
  · exact nofun
  · exact List.forall_mem_singleton.2 h

end

/-! ## Metadata -/

theorem coded_of_typeIssues {type : Yaml.Value} {is : List Issue} (h : typeIssues type = .ok is) :
    ∀ i ∈ is, i.Coded "META" := by
  rw [typeIssues] at h
  split_ifs at h
  · obtain rfl := Except.ok.inj h
    exact List.forall_mem_singleton.2 ⟨2, rfl⟩
  · obtain ⟨t, -, h⟩ := bind_eq_ok_iff.1 h
    obtain rfl := Except.ok.inj h
    exact List.forall_mem_singleton.2 ⟨3, rfl⟩
  · obtain rfl := Except.ok.inj h
    exact nofun

theorem coded_ownerIssues (owner : Yaml.Value) : ∀ i ∈ ownerIssues owner, i.Coded "META" := by
  rw [ownerIssues]
  split
  · exact List.forall_mem_singleton.2 ⟨4, rfl⟩
  · exact forall_mem_unless ⟨5, rfl⟩

theorem coded_of_modeIssues {type mode : Yaml.Value} {is : List Issue}
    (h : modeIssues type mode = .ok is) : ∀ i ∈ is, i.Coded "META" := by
  rw [modeIssues] at h
  split_ifs at h
  · obtain ⟨t, -, h⟩ := bind_eq_ok_iff.1 h
    obtain rfl := Except.ok.inj h
    exact List.forall_mem_singleton.2 ⟨6, rfl⟩
  · obtain ⟨t, -, h⟩ := bind_eq_ok_iff.1 h
    obtain rfl := Except.ok.inj h
    exact List.forall_mem_singleton.2 ⟨7, rfl⟩
  · obtain rfl := Except.ok.inj h
    exact nofun
  · obtain ⟨t, -, h⟩ := bind_eq_ok_iff.1 h
    obtain rfl := Except.ok.inj h
    exact List.forall_mem_singleton.2 ⟨8, rfl⟩
  · obtain rfl := Except.ok.inj h
    exact nofun

theorem coded_of_metadata {m : Option Metadata} {is : List Issue} (h : metadata m = .ok is) :
    ∀ i ∈ is, i.Coded "META" := by
  cases m with
  | none =>
    obtain rfl := Except.ok.inj h
    exact List.forall_mem_singleton.2 ⟨1, rfl⟩
  | some m =>
    obtain ⟨type, htype, h⟩ := bind_eq_ok_iff.1 h
    obtain ⟨mode, hmode, h⟩ := bind_eq_ok_iff.1 h
    obtain rfl := Except.ok.inj h
    rw [List.forall_mem_append, List.forall_mem_append]
    exact ⟨⟨coded_of_typeIssues htype, coded_ownerIssues _⟩, coded_of_modeIssues hmode⟩

/-! ## Phases -/

theorem coded_missingPhases (ss : List Section) : ∀ i ∈ missingPhases ss, i.Coded "AAA" := by
  rw [missingPhases, List.forall_mem_append, List.forall_mem_append]
  exact ⟨⟨forall_mem_unless ⟨1, rfl⟩, forall_mem_unless ⟨2, rfl⟩⟩, forall_mem_unless ⟨3, rfl⟩⟩

theorem coded_orderIssues (highest : Nat) (ss : List Section) :
    ∀ i ∈ orderIssues highest ss, i.Coded "AAA" := by
  induction ss generalizing highest with
  | nil => exact nofun
  | cons s ss ih =>
    rw [orderIssues]
    split
    · exact ih highest
    · exact List.forall_mem_append.2 ⟨forall_mem_when ⟨4, rfl⟩, ih _⟩

theorem coded_phases (d : Document) : ∀ i ∈ phases d, i.Coded "AAA" := by
  rw [phases]
  split
  · rw [List.forall_mem_append, List.forall_mem_append, List.forall_mem_append]
    exact ⟨⟨⟨coded_missingPhases _, coded_orderIssues 0 _⟩,
      List.forall_mem_map.2 fun _ _ => ⟨5, rfl⟩⟩, List.forall_mem_map.2 fun _ _ => ⟨6, rfl⟩⟩
  · exact nofun

/-! ## Names and patterns -/

theorem coded_naming (vs : List Variable) : ∀ i ∈ naming vs, i.Coded "NAME" := by
  rw [naming, List.forall_mem_append, List.forall_mem_append]
  refine ⟨⟨List.forall_mem_filterMap.2 fun v _ i hi => ?_, List.forall_mem_map.2 fun _ _ => ⟨2, rfl⟩⟩,
    List.forall_mem_map.2 fun _ _ => ⟨3, rfl⟩⟩
  obtain ⟨p, -, rfl⟩ := Option.map_eq_some_iff.1 hi
  exact ⟨1, rfl⟩

theorem oncePerLine_subset (seen : List (Text × Option Nat)) (is : List Issue) :
    oncePerLine seen is ⊆ is := by
  induction is generalizing seen with
  | nil => exact List.Subset.refl _
  | cons i is ih =>
    rw [oncePerLine]
    split_ifs
    · exact fun j hj => List.mem_cons_of_mem i (ih seen hj)
    · exact List.cons_subset_cons i (ih _)
    · exact List.cons_subset_cons i (ih _)

theorem coded_lineIssues (line : Nat) (t : Text) : ∀ i ∈ lineIssues line t, i.Coded "PAT" := by
  rw [lineIssues, List.forall_mem_append]
  refine ⟨fun i hi => ?_, List.forall_mem_map.2 fun _ _ => ⟨3, rfl⟩⟩
  obtain ⟨⟨s, rest⟩, -, rfl⟩ := Option.map_eq_some_iff.1 (Option.mem_toList.1 hi)
  exact ⟨2, rfl⟩

theorem coded_of_formIssue? {p : Pattern} {i : Issue} (h : formIssue? p = some i) :
    i.Coded "PAT" := by
  obtain ⟨problem, -, rfl⟩ := Option.map_eq_some_iff.1 h
  cases problem with
  | empty => exact ⟨3, rfl⟩
  | ill => exact ⟨1, rfl⟩
  | unclosed => exact ⟨2, rfl⟩

theorem coded_of_styleIssue? {p : Pattern} {i : Issue} (h : styleIssue? p = some i) :
    i.Coded "PAT" := by
  rw [styleIssue?] at h
  split_ifs at h
  · obtain rfl := Option.some.inj h
    exact ⟨4, rfl⟩
  · obtain rfl := Option.some.inj h
    exact ⟨5, rfl⟩
  · obtain rfl := Option.some.inj h
    exact ⟨6, rfl⟩

theorem coded_patterns (d : Document) : ∀ i ∈ patterns d, i.Coded "PAT" := by
  rw [patterns, List.forall_mem_append]
  refine ⟨fun i hi => ?_, List.forall_mem_filterMap.2 fun _ _ i => coded_of_styleIssue?⟩
  rcases List.mem_append.1 (oncePerLine_subset _ _ hi) with hi | hi
  · obtain ⟨p, -, hp⟩ := List.mem_filterMap.1 hi
    exact coded_of_formIssue? hp
  · obtain ⟨is, his, hi⟩ := List.mem_flatten.1 hi
    obtain ⟨k, hk, rfl⟩ := List.mem_mapIdx.1 his
    exact coded_lineIssues _ _ i hi

/-! ## Commands -/

theorem coded_command (fileType : Option FileType) (c : Command) :
    ∀ i ∈ command fileType c, i.Coded "CMD" ∧ i.line = some c.line := by
  simp only [command, List.forall_mem_append]
  refine ⟨⟨⟨⟨⟨⟨⟨?_, ?_⟩, ?_⟩, ?_⟩, ?_⟩, ?_⟩, ?_⟩, ?_⟩
  · exact forall_mem_when ⟨⟨1, rfl⟩, rfl⟩
  · exact forall_mem_when ⟨⟨2, rfl⟩, rfl⟩
  · exact forall_mem_when ⟨⟨3, rfl⟩, rfl⟩
  · cases fileType with
    | none => exact nofun
    | some t => exact forall_mem_when ⟨⟨4, rfl⟩, rfl⟩
  · exact forall_mem_when ⟨⟨5, rfl⟩, rfl⟩
  · exact forall_mem_when ⟨⟨6, rfl⟩, rfl⟩
  · exact forall_mem_when ⟨⟨7, rfl⟩, rfl⟩
  · exact forall_mem_when ⟨⟨8, rfl⟩, rfl⟩

theorem coded_fileTypeRules (fileType : Option FileType) (cs : List Command) :
    ∀ i ∈ fileTypeRules fileType cs, i.Coded "FILE" ∧ i.line = none := by
  cases fileType with
  | none => exact nofun
  | some t =>
    cases t with
    | testData => exact forall_mem_when ⟨⟨1, rfl⟩, rfl⟩
    | testUtil => exact nofun
    | testCase => exact forall_mem_unless ⟨⟨4, rfl⟩, rfl⟩
    | testSuite => exact forall_mem_when ⟨⟨2, rfl⟩, rfl⟩
    | testCollection => exact forall_mem_when ⟨⟨3, rfl⟩, rfl⟩

end Check

end ScriptAudit
