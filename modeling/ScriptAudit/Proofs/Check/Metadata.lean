import ScriptAudit.Proofs.Check.Answers
import ScriptAudit.Proofs.Document.TypeOnly
import ScriptAudit.Proofs.Yaml.Hexadecimal
import ScriptAudit.Proofs.Yaml.TypeOnly

/-!
# What the check of the metadata tells

The issues of the metadata say of every setting whether it is as it should be.

* `Metadata.Sound` — settings as they should be.
* `Check.typeIssues_cases`, `Check.ownerIssues_cases`, `Check.modeIssues_cases` — the one issue of
  each setting, with its code.
* `Check.sound_iff` — no error is found exactly in sound settings.
* `Document.TypeAccounted` — a document whose type is unknown is not valid.
* `Check.types_accounted` — the main result.
-/

namespace ScriptAudit

/-! ## Names of types and modes -/

theorem FileType.ofValue?_eq_some_iff {v : Yaml.Value} {t : FileType} :
    ofValue? v = some t ↔ v = .str t.name := by
  constructor
  · intro h
    cases v with
    | str s =>
      have hname : (t.name == s) = true := List.find?_some (p := fun u : FileType => u.name == s) h
      rw [eq_of_beq hname]
    | _ => cases h
  · rintro rfl
    cases t <;> decide

theorem Mode.ofValue?_eq_some_iff {v : Yaml.Value} {m : Mode} :
    ofValue? v = some m ↔ v = .str m.name := by
  constructor
  · intro h
    cases v with
    | str s =>
      have hname : (m.name == s) = true := List.find?_some (p := fun u : Mode => u.name == s) h
      rw [eq_of_beq hname]
    | _ => cases h
  · rintro rfl
    cases m <;> decide

/-- What counts as nothing names no type. -/
theorem FileType.ofValue?_eq_none_of_isVoid {v : Yaml.Value} (h : v.isVoid = true) :
    ofValue? v = none := by
  cases v with
  | str s =>
    obtain rfl := List.isEmpty_iff.1 h
    rfl
  | _ => rfl

/-- A type that needs a mode is one of three. -/
theorem FileType.any_hasMode_iff {v : Yaml.Value} : (ofValue? v).any hasMode = true ↔
    ∃ t : FileType, v = .str t.name ∧ (t = .testCase ∨ t = .testSuite ∨ t = .testCollection) := by
  rw [Option.any_eq_true]
  simp only [ofValue?_eq_some_iff]
  refine exists_congr fun t => and_congr_right fun _ => ?_
  cases t <;> simp [hasMode]

/-! ## Settings as they should be -/

/-- Settings as they should be: the name of a type, an owner of at least two characters, and the
name of a mode where the type needs one. -/
structure Metadata.Sound (m : Metadata) : Prop where
  type : ∃ t : FileType, m.type = .str t.name
  owner : ∃ o, m.owner = .str o ∧ 2 ≤ (Text.trim o).length
  mode : ∀ t : FileType, m.type = .str t.name →
    t = .testCase ∨ t = .testSuite ∨ t = .testCollection → ∃ k : Mode, m.mode = .str k.name

/-- The names in sound settings can be shown. -/
theorem Metadata.Sound.showable {m : Metadata} (h : m.Sound) : m.Showable := by
  obtain ⟨⟨t, ht⟩, -, hmode⟩ := h
  refine ⟨FileType.showable_of_ne_none (by simp [FileType.ofValue?_eq_some_iff.2 ht]), ?_⟩
  intro hneeds
  obtain ⟨t', ht', hneeds⟩ := FileType.any_hasMode_iff.1 hneeds
  obtain ⟨k, hk⟩ := hmode t' ht' hneeds
  exact Mode.showable_of_ne_none (by simp [Mode.ofValue?_eq_some_iff.2 hk])

namespace Check

/-- Whether some issue has one of these codes. -/
def Reports (codes : List Text) (is : List Issue) : Prop := ∃ i ∈ is, i.code ∈ codes

/-- Whether there is one issue, of this severity and with one of these codes. -/
def IsSingle (severity : Severity) (codes : List Text) (is : List Issue) : Prop :=
  ∃ i, is = [i] ∧ i.severity = severity ∧ i.code ∈ codes

/-- The codes for what is wrong with the type, or for no metadata at all. -/
def typeCodes : List Text := ["META001", "META002", "META003"]

/-- The codes for what is wrong with the owner. -/
def ownerCodes : List Text := ["META004", "META005"]

/-- The codes for what is said about the mode. -/
def modeCodes : List Text := ["META006", "META007", "META008"]

section

variable {codes codes' : List Text} {is : List Issue}

theorem IsSingle.any_isError (h : IsSingle .error codes is) : is.any Issue.isError = true := by
  obtain ⟨i, rfl, hi, -⟩ := h
  simp [Issue.isError, hi]

theorem IsSingle.code_mem {severity : Severity} (h : IsSingle severity codes is)
    (hsub : codes ⊆ codes') : ∀ i ∈ is, i.code ∈ codes' := by
  obtain ⟨i, rfl, -, hi⟩ := h
  exact List.forall_mem_singleton.2 (hsub hi)

/-- No issue has a code of another setting. -/
theorem countP_eq_zero_of_disjoint (his : ∀ i ∈ is, i.code ∈ codes)
    (hcodes : ∀ c ∈ codes, c ∉ codes') : is.countP (fun i => i.code ∈ codes') = 0 := by
  rw [List.countP_eq_zero]
  intro i hi
  simpa using hcodes i.code (his i hi)

end

variable {type owner mode : Yaml.Value} {is : List Issue}

/-! ## The issue of each setting -/

/-- The type is named, or one error says that it is not. -/
theorem typeIssues_cases (h : typeIssues type = .ok is) :
    (∃ t, FileType.ofValue? type = some t) ∧ is = [] ∨
      FileType.ofValue? type = none ∧ IsSingle .error ["META002", "META003"] is := by
  rw [typeIssues] at h
  split_ifs at h with hvoid hnone
  · obtain rfl := Except.ok.inj h
    exact Or.inr ⟨FileType.ofValue?_eq_none_of_isVoid hvoid, _, rfl, rfl, List.mem_cons_self⟩
  · obtain ⟨t, -, h⟩ := bind_eq_ok_iff.1 h
    obtain rfl := Except.ok.inj h
    exact Or.inr ⟨Option.isNone_iff_eq_none.1 hnone, _, rfl, rfl,
      List.mem_cons_of_mem _ List.mem_cons_self⟩
  · obtain rfl := Except.ok.inj h
    exact Or.inl ⟨Option.ne_none_iff_exists'.1 (by simpa using hnone), rfl⟩

theorem isOwner_iff : isOwner owner = true ↔ ∃ o, owner = .str o ∧ 2 ≤ (Text.trim o).length := by
  cases owner <;> simp [isOwner]

/-- The owner is one, or one error says that it is not. -/
theorem ownerIssues_cases (owner : Yaml.Value) :
    isOwner owner = true ∧ ownerIssues owner = [] ∨
      isOwner owner = false ∧ IsSingle .error ["META004", "META005"] (ownerIssues owner) := by
  rw [ownerIssues]
  split_ifs with hvoid howner
  · have howner : isOwner owner = false := by
      cases owner with
      | str o =>
        obtain rfl := List.isEmpty_iff.1 hvoid
        rfl
      | _ => rfl
    exact Or.inr ⟨howner, _, rfl, rfl, List.mem_cons_self⟩
  · exact Or.inl ⟨howner, rfl⟩
  · exact Or.inr ⟨by simpa using howner, _, rfl, rfl, List.mem_cons_of_mem _ List.mem_cons_self⟩

/-- Where the type needs a mode it is named, or one error says that it is not. -/
theorem modeIssues_cases (hneeds : (FileType.ofValue? type).any FileType.hasMode = true)
    (h : modeIssues type mode = .ok is) :
    (∃ k, Mode.ofValue? mode = some k) ∧ is = [] ∨
      Mode.ofValue? mode = none ∧ IsSingle .error ["META006", "META007"] is := by
  rw [modeIssues, if_pos hneeds] at h
  split_ifs at h with hvoid hnone
  · obtain ⟨t, -, h⟩ := bind_eq_ok_iff.1 h
    obtain rfl := Except.ok.inj h
    have hmode : Mode.ofValue? mode = none := by
      cases mode with
      | str s =>
        obtain rfl := List.isEmpty_iff.1 hvoid
        rfl
      | _ => rfl
    exact Or.inr ⟨hmode, _, rfl, rfl, List.mem_cons_self⟩
  · obtain ⟨t, -, h⟩ := bind_eq_ok_iff.1 h
    obtain rfl := Except.ok.inj h
    exact Or.inr ⟨Option.isNone_iff_eq_none.1 hnone, _, rfl, rfl,
      List.mem_cons_of_mem _ List.mem_cons_self⟩
  · obtain rfl := Except.ok.inj h
    exact Or.inl ⟨Option.ne_none_iff_exists'.1 (by simpa using hnone), rfl⟩

/-- Where the type needs no mode nothing is wrong with it; an issue may say that none is needed. -/
theorem modeIssues_cases_of_idle (hneeds : (FileType.ofValue? type).any FileType.hasMode = false)
    (h : modeIssues type mode = .ok is) : is = [] ∨ IsSingle .info ["META008"] is := by
  rw [modeIssues, if_neg (by simp [hneeds])] at h
  split_ifs at h
  · obtain ⟨t, -, h⟩ := bind_eq_ok_iff.1 h
    obtain rfl := Except.ok.inj h
    exact Or.inr ⟨_, rfl, rfl, List.mem_cons_self⟩
  · exact Or.inl (Except.ok.inj h).symm

/-- The issues of settings are those of the three that are known. -/
theorem metadata_some_eq_ok_iff {m : Metadata} : metadata (some m) = .ok is ↔
    ∃ ts ms, typeIssues m.type = .ok ts ∧ modeIssues m.type m.mode = .ok ms ∧
      is = ts ++ ownerIssues m.owner ++ ms := by
  constructor
  · intro h
    obtain ⟨ts, hts, h⟩ := bind_eq_ok_iff.1 h
    obtain ⟨ms, hms, h⟩ := bind_eq_ok_iff.1 h
    exact ⟨ts, ms, hts, hms, (Except.ok.inj h).symm⟩
  · rintro ⟨ts, ms, hts, hms, rfl⟩
    rw [metadata, hts, hms]
    rfl

theorem code_mem_of_typeIssues (h : typeIssues type = .ok is) : ∀ i ∈ is, i.code ∈ typeCodes := by
  obtain ⟨-, rfl⟩ | ⟨-, hsingle⟩ := typeIssues_cases h
  · exact nofun
  · exact hsingle.code_mem (by decide)

theorem code_mem_ownerIssues (owner : Yaml.Value) :
    ∀ i ∈ ownerIssues owner, i.code ∈ ownerCodes := by
  obtain ⟨-, hnil⟩ | ⟨-, hsingle⟩ := ownerIssues_cases owner
  · simp [hnil]
  · exact hsingle.code_mem (by decide)

/-- Nothing or one thing is said about the mode. -/
theorem code_mem_of_modeIssues (h : modeIssues type mode = .ok is) :
    is.length ≤ 1 ∧ ∀ i ∈ is, i.code ∈ modeCodes := by
  cases hneeds : (FileType.ofValue? type).any FileType.hasMode with
  | true =>
    obtain ⟨-, rfl⟩ | ⟨-, i, rfl, -, hi⟩ := modeIssues_cases hneeds h
    · exact ⟨Nat.zero_le 1, nofun⟩
    · have hsub : ["META006".toList, "META007".toList] ⊆ modeCodes := by decide
      exact ⟨Nat.le_refl 1, List.forall_mem_singleton.2 (hsub hi)⟩
  | false =>
    obtain rfl | ⟨i, rfl, -, hi⟩ := modeIssues_cases_of_idle hneeds h
    · exact ⟨Nat.zero_le 1, nofun⟩
    · have hsub : ["META008".toList] ⊆ modeCodes := by decide
      exact ⟨Nat.le_refl 1, List.forall_mem_singleton.2 (hsub hi)⟩

/-- At most one issue is about the mode. -/
theorem countP_modeCodes_le {m : Metadata} (h : metadata (some m) = .ok is) :
    is.countP (fun i => i.code ∈ modeCodes) ≤ 1 := by
  obtain ⟨ts, ms, hts, hms, rfl⟩ := metadata_some_eq_ok_iff.1 h
  have htype : ts.countP (fun i => i.code ∈ modeCodes) = 0 :=
    countP_eq_zero_of_disjoint (code_mem_of_typeIssues hts) (by decide)
  have howner : (ownerIssues m.owner).countP (fun i => i.code ∈ modeCodes) = 0 :=
    countP_eq_zero_of_disjoint (code_mem_ownerIssues m.owner) (by decide)
  rw [List.countP_append, List.countP_append, htype, howner, Nat.zero_add]
  exact List.countP_le_length.trans (code_mem_of_modeIssues hms).1

/-! ## Sound settings -/

/-- Settings without an error are sound. -/
theorem sound_of_metadata {m : Metadata} (h : metadata (some m) = .ok is)
    (hnone : is.any Issue.isError = false) : m.Sound := by
  obtain ⟨ts, ms, hts, hms, rfl⟩ := metadata_some_eq_ok_iff.1 h
  simp only [List.any_append, Bool.or_eq_false_iff] at hnone
  obtain ⟨⟨hts', howner'⟩, hms'⟩ := hnone
  refine ⟨?_, ?_, ?_⟩
  · obtain ⟨⟨t, ht⟩, -⟩ | ⟨-, hsingle⟩ := typeIssues_cases hts
    · exact ⟨t, FileType.ofValue?_eq_some_iff.1 ht⟩
    · exact absurd hsingle.any_isError (by simp [hts'])
  · obtain ⟨howner, -⟩ | ⟨-, hsingle⟩ := ownerIssues_cases m.owner
    · exact isOwner_iff.1 howner
    · exact absurd hsingle.any_isError (by simp [howner'])
  · intro t ht hneeds
    obtain ⟨⟨k, hk⟩, -⟩ | ⟨-, hsingle⟩ :=
      modeIssues_cases (FileType.any_hasMode_iff.2 ⟨t, ht, hneeds⟩) hms
    · exact ⟨k, Mode.ofValue?_eq_some_iff.1 hk⟩
    · exact absurd hsingle.any_isError (by simp [hms'])

/-- **No error is found exactly in sound settings.** -/
theorem sound_iff {m : Metadata} :
    (∃ is, metadata (some m) = .ok is ∧ is.any Issue.isError = false) ↔ m.Sound := by
  constructor
  · rintro ⟨is, h, hnone⟩
    exact sound_of_metadata h hnone
  · intro hsound
    obtain ⟨is, h⟩ := (shownWhen_metadata (some m)).answers (by rintro s ⟨⟩; exact hsound.showable)
    refine ⟨is, h, ?_⟩
    obtain ⟨⟨t, ht⟩, howner, hmode⟩ := hsound
    obtain ⟨ts, ms, hts, hms, rfl⟩ := metadata_some_eq_ok_iff.1 h
    have hts' : ts = [] := by
      obtain ⟨-, hnil⟩ | ⟨hnone, -⟩ := typeIssues_cases hts
      · exact hnil
      · rw [FileType.ofValue?_eq_some_iff.2 ht] at hnone
        cases hnone
    have howner' : ownerIssues m.owner = [] := by
      obtain ⟨-, hnil⟩ | ⟨hfalse, -⟩ := ownerIssues_cases m.owner
      · exact hnil
      · rw [isOwner_iff.2 howner] at hfalse
        cases hfalse
    have hms' : ms.any Issue.isError = false := by
      cases hneeds : (FileType.ofValue? m.type).any FileType.hasMode with
      | true =>
        obtain ⟨t', ht', hneeds'⟩ := FileType.any_hasMode_iff.1 hneeds
        obtain ⟨k, hk⟩ := hmode t' ht' hneeds'
        obtain ⟨-, rfl⟩ | ⟨hnone, -⟩ := modeIssues_cases hneeds hms
        · rfl
        · rw [Mode.ofValue?_eq_some_iff.2 hk] at hnone
          cases hnone
      | false =>
        obtain rfl | ⟨i, rfl, hi, -⟩ := modeIssues_cases_of_idle hneeds hms
        · rfl
        · simp [Issue.isError, hi]
    simp [hts', howner', hms']

/-- A type that is not known, and can be shown, is an error. -/
theorem metadata_of_unknown {m : Option Metadata} (hnone : m.bind Metadata.fileType? = none)
    (hshowable : ∀ s ∈ m, s.type.Showable) :
    ∃ is, metadata m = .ok is ∧ Reports typeCodes is ∧ is.any Issue.isError = true := by
  cases m with
  | none => exact ⟨_, rfl, ⟨_, List.mem_singleton_self _, List.mem_cons_self⟩, rfl⟩
  | some m =>
    rw [Option.bind_some, Metadata.fileType?] at hnone
    have hs : ∀ s ∈ some m, s.Showable := by
      rintro s ⟨⟩
      exact ⟨hshowable m rfl, fun hneeds => by simp [Metadata.fileType?, hnone] at hneeds⟩
    obtain ⟨is, h⟩ := (shownWhen_metadata (some m)).answers hs
    refine ⟨is, h, ?_⟩
    obtain ⟨ts, ms, hts, hms, rfl⟩ := metadata_some_eq_ok_iff.1 h
    obtain ⟨⟨t, ht⟩, -⟩ | ⟨-, hsingle⟩ := typeIssues_cases hts
    · rw [hnone] at ht
      cases ht
    · rw [List.any_append, List.any_append, hsingle.any_isError]
      obtain ⟨i, rfl, -⟩ := hsingle
      have hcode := code_mem_of_typeIssues hts i (List.mem_singleton_self i)
      exact ⟨⟨i, by simp, hcode⟩, rfl⟩

/-- Of a type that is known nothing is said. -/
theorem not_reports_of_known {m : Metadata} {t : FileType} (ht : m.fileType? = some t)
    (h : metadata (some m) = .ok is) : ¬ Reports typeCodes is := by
  obtain ⟨ts, ms, hts, hms, rfl⟩ := metadata_some_eq_ok_iff.1 h
  have hts' : ts = [] := by
    obtain ⟨-, hnil⟩ | ⟨hnone, -⟩ := typeIssues_cases hts
    · exact hnil
    · rw [Metadata.fileType?, hnone] at ht
      cases ht
  -- the codes of the owner and of the mode are others
  have howner : (ownerIssues m.owner).countP (fun i => i.code ∈ typeCodes) = 0 :=
    countP_eq_zero_of_disjoint (code_mem_ownerIssues m.owner) (by decide)
  have hmode : ms.countP (fun i => i.code ∈ typeCodes) = 0 :=
    countP_eq_zero_of_disjoint (code_mem_of_modeIssues hms).2 (by decide)
  have hzero : (ts ++ ownerIssues m.owner ++ ms).countP (fun i => i.code ∈ typeCodes) = 0 := by
    simp only [hts', List.nil_append, List.countP_append, howner, hmode]
  rintro ⟨i, hi, hcode⟩
  exact absurd hcode (by simpa using List.countP_eq_zero.1 hzero i hi)

/-- The type is reported unless it is known, or cannot be shown. -/
theorem reports_typeCodes_iff {m : Option Metadata} :
    (∃ is, metadata m = .ok is ∧ Reports typeCodes is) ↔
      m.bind Metadata.fileType? = none ∧ ∀ s ∈ m, s.type.Showable := by
  constructor
  · rintro ⟨is, h, hreports⟩
    refine ⟨?_, fun s hs => ((shownWhen_metadata m).answers_iff.1 ⟨_, h⟩ s hs).type⟩
    cases m with
    | none => rfl
    | some m =>
      rw [Option.bind_some, Option.eq_none_iff_forall_not_mem]
      intro t ht
      exact not_reports_of_known ht h hreports
  · rintro ⟨hnone, hshowable⟩
    obtain ⟨is, h, hreports, -⟩ := metadata_of_unknown hnone hshowable
    exact ⟨is, h, hreports⟩

end Check

/-! ## Documents of unknown type -/

/-- Whether there is an error decides whether a review is valid, strict or not. -/
theorem Review.isValid_of_ofText [Yaml.Loader] {strict : Bool} {t : Text} {d : Document}
    {r : Review} (hd : Document.read t = .ok d) (h : ofText strict t = .ok r) :
    ∃ is, Check.all d = .ok is ∧ r.isValid = !is.any Issue.isError := by
  rw [ofText, hd] at h
  obtain ⟨is, his, h⟩ := bind_eq_ok_iff.1 (show (Check.all d >>= _) = .ok r from h)
  obtain rfl := Except.ok.inj h
  refine ⟨is, his, ?_⟩
  cases strict with
  | true => rfl
  | false => simp [isValid, List.any_filter]

namespace Document

variable {text : Text} {d : Document}

theorem fileType_eq_of_read [Yaml.Loader] (h : read text = .ok d) :
    d.fileType = d.metadata.bind Metadata.fileType? := by
  obtain ⟨m, start, -, rfl⟩ := read_eq_ok h
  rfl

/-- How a document whose type is unknown is accounted for. -/
structure TypeAccounted [Yaml.Loader] (text : Text) (d : Document) : Prop where
  /-- The type is unknown exactly if an issue says so, or if it cannot be shown in an issue. -/
  fileType_eq_none_iff : d.fileType = none ↔
    (∃ is, Check.metadata d.metadata = .ok is ∧ Check.Reports Check.typeCodes is) ∨
      ∃ m ∈ d.metadata, ¬ m.type.Showable
  /-- What a type asks for is not looked at. -/
  idle : d.fileType = none → Check.phases d = [] ∧ Check.fileTypeRules d.fileType d.commands = []
  /-- The review of a document with such an issue is not valid. -/
  isValid_eq_false : d.fileType = none → (∀ m ∈ d.metadata, m.type.Showable) →
    ∀ strict, ∃ r, Review.ofText strict text = .ok r ∧ r.isValid = false
  /-- Of a type that cannot be shown nothing is said at all. -/
  eq_error : (∃ m ∈ d.metadata, ¬ m.type.Showable) →
    Check.metadata d.metadata = .error .integerShown ∧
      ∀ strict, Review.ofText strict text = .error .integerShown

theorem typeAccounted_of_read [Yaml.Loader] (h : read text = .ok d) : TypeAccounted text d := by
  have htype := fileType_eq_of_read h
  have hreports := Check.reports_typeCodes_iff (m := d.metadata)
  rw [← htype] at hreports
  refine ⟨⟨?_, ?_⟩, ?_, ?_, ?_⟩
  · intro hnone
    by_cases hshowable : ∀ m ∈ d.metadata, m.type.Showable
    · exact Or.inl (hreports.2 ⟨hnone, hshowable⟩)
    · push Not at hshowable
      exact Or.inr hshowable
  · rintro (hreported | ⟨m, hm, hshowable⟩)
    · exact (hreports.1 hreported).1
    · rw [htype, hm]
      by_contra hsome
      exact hshowable (FileType.showable_of_ne_none hsome)
  · intro hnone
    simp [Check.phases, Check.fileTypeRules, hnone]
  · intro hnone hshowable strict
    obtain ⟨ms, hms, -, herror⟩ := Check.metadata_of_unknown (htype ▸ hnone) hshowable
    have hshown : ∀ s ∈ d.metadata, s.Showable :=
      (Check.shownWhen_metadata _).answers_iff.1 ⟨ms, hms⟩
    obtain ⟨r, hr⟩ := Review.answers_ofText_iff.2 ⟨d, h, hshown⟩
    refine ⟨r, hr, ?_⟩
    obtain ⟨is, his, hvalid⟩ := Review.isValid_of_ofText h hr
    obtain ⟨ms', hms', his⟩ := bind_eq_ok_iff.1 his
    rw [hms] at hms'
    obtain rfl := Except.ok.inj hms'
    obtain rfl := Except.ok.inj his
    simp [hvalid, List.any_append, herror]
  · rintro ⟨m, hm, hshowable⟩
    have hfails : ¬ ∀ s ∈ d.metadata, s.Showable := fun hs => hshowable (hs m hm).type
    refine ⟨(Check.shownWhen_metadata d.metadata).fault hfails, fun strict => ?_⟩
    rw [Review.ofText, h]
    exact ((Check.shownWhen_all d).bind_pure _).fault hfails

end Document

/-! ## The main result -/

namespace Check

open Document

/-- **A document whose type is unknown does not pass.** Of a document that is read the type is
unknown exactly if an issue says so, unless the type cannot be shown in an issue; then there is no
review at all. Of any settings no error is found exactly if they are sound, and at most one issue
is about the mode. -/
theorem types_accounted [Yaml.Loader] {text : Text} {d : Document} (h : Document.read text = .ok d)
    (m : Metadata) :
    TypeAccounted text d ∧
      ((∃ is, metadata (some m) = .ok is ∧ is.any Issue.isError = false) ↔ m.Sound) ∧
      ∀ is, metadata (some m) = .ok is → is.countP (fun i => i.code ∈ modeCodes) ≤ 1 :=
  ⟨typeAccounted_of_read h, sound_iff, fun _ => countP_modeCodes_le⟩

/-- The settings of a document that gives the type `Case`. -/
def misnamed : Metadata := ⟨.str ['C', 'a', 's', 'e'], .null, .null, []⟩

theorem not_isValid_of_misnamed : ∃ d, Document.read (typeOnly ['C', 'a', 's', 'e']) = .ok d ∧
    d.fileType = none ∧
    (∃ is, metadata d.metadata = .ok is ∧ Reports typeCodes is) ∧
    (∀ strict, ∃ r, Review.ofText strict (typeOnly ['C', 'a', 's', 'e']) = .ok r ∧
      r.isValid = false) ∧
    ¬ ∃ is, metadata (some misnamed) = .ok is ∧ is.any Issue.isError = false := by
  have hvalue : Yaml.Value.ofScalar (Yaml.Tag.ofPlain ['C', 'a', 's', 'e']) ['C', 'a', 's', 'e'] =
      .ok (.str ['C', 'a', 's', 'e']) := by
    have htag : Yaml.Tag.ofPlain ['C', 'a', 's', 'e'] = .str := by decide
    rw [htag]
    rfl
  have hword : ∀ c ∈ ['C', 'a', 's', 'e'], c.isAlphanum = true := List.all_eq_true.1 rfl
  obtain ⟨d, hd, hm⟩ := read_typeOnly hword (Yaml.TypeOnly.load_block hword hvalue)
  have hnone : d.fileType = none := by
    rw [fileType_eq_of_read hd, hm]
    decide
  have hshowable : ∀ m ∈ d.metadata, m.type.Showable := by
    rw [hm]
    rintro m ⟨⟩
    exact Yaml.Value.showable_of_integers_eq_nil rfl
  obtain ⟨haccounted, hsound, -⟩ := types_accounted hd misnamed
  refine ⟨d, hd, hnone, ?_, haccounted.isValid_eq_false hnone hshowable, ?_⟩
  · obtain hreported | ⟨m, hm, hlong⟩ := haccounted.fileType_eq_none_iff.1 hnone
    · exact hreported
    · exact absurd (hshowable m hm) hlong
  · rw [hsound]
    rintro ⟨⟨t, ht⟩, -, -⟩
    cases t <;> cases ht

/-- An integer of too many digits is no type, and nothing says so. -/
theorem not_reports_of_not_brief [Yaml.Loader] {w : Text} (hw : ∀ c ∈ w, c.isAlphanum = true)
    {i : Int} (hlong : ¬ Brief i) (hload : Yaml.Loader.load (Yaml.TypeOnly.block w) =
      .ok (.map [(.str Yaml.TypeOnly.key, .num (.int i))])) :
    ∃ d, Document.read (typeOnly w) = .ok d ∧ d.fileType = none ∧
      (¬ ∃ is, metadata d.metadata = .ok is ∧ Reports typeCodes is) ∧
      ∀ strict, Review.ofText strict (typeOnly w) = .error .integerShown := by
  obtain ⟨d, hd, hm⟩ := read_typeOnly hw hload
  have hshowable : ∃ m ∈ d.metadata, ¬ m.type.Showable :=
    ⟨_, hm, fun hshowable => hlong (hshowable _ (List.mem_singleton_self _))⟩
  obtain ⟨herror, hreview⟩ := (typeAccounted_of_read hd).eq_error hshowable
  refine ⟨d, hd, ?_, ?_, hreview⟩
  · rw [fileType_eq_of_read hd, hm]
    rfl
  · rintro ⟨is, his, -⟩
    rw [herror] at his
    cases his

/-- A hexadecimal numeral is read whatever its length is. -/
theorem not_reports_of_hexadecimal {k : Nat} (hlong : ¬ Brief ((16 ^ (k + 1) - 1 : Nat) : Int)) :
    ∃ d, Document.read (typeOnly (Yaml.hexadecimal (k + 1))) = .ok d ∧ d.fileType = none ∧
      (¬ ∃ is, metadata d.metadata = .ok is ∧ Reports typeCodes is) ∧
      ∀ strict, Review.ofText strict (typeOnly (Yaml.hexadecimal (k + 1))) =
        .error .integerShown := by
  have hword := Yaml.isAlphanum_of_mem_hexadecimal (k + 1)
  exact not_reports_of_not_brief hword hlong
    (Yaml.TypeOnly.load_block hword (Yaml.Value.ofScalar_hexadecimal k))

/-- With 3600 hexadecimal digits there are too many decimal ones. -/
theorem not_reports_of_long : ∃ d,
    Document.read (typeOnly (Yaml.hexadecimal 3600)) = .ok d ∧ d.fileType = none ∧
      (¬ ∃ is, metadata d.metadata = .ok is ∧ Reports typeCodes is) ∧
      ∀ strict, Review.ofText strict (typeOnly (Yaml.hexadecimal 3600)) = .error .integerShown := by
  have hlong : ¬ Brief ((16 ^ (3599 + 1) - 1 : Nat) : Int) := by decide +kernel
  exact not_reports_of_hexadecimal hlong

end Check

end ScriptAudit
