import ScriptAudit.Document.Basic
import ScriptAudit.Proofs.Document.Sections
import ScriptAudit.Proofs.Yaml.Showing

/-!
# Documents without metadata, and documents that are not read

Whether a document is read is decided by the block of settings at its head and by what the loader
makes of it. A block that the loader refuses, or that is no mapping, leaves the document without
metadata (`Document.metadata_eq_none_iff`). A fault of the loader keeps the document from being
read, and so does a setting under an unknown key that cannot be shown
(`Document.read_eq_error_iff`). Nothing else is asked of the loader.
-/

namespace ScriptAudit

/-! ## Settings -/

namespace Metadata

/-- Whether the keys that are not known can be shown. -/
def KeysShowable (entries : List (Yaml.Value × Yaml.Value)) : Prop :=
  ∀ e ∈ entries, isKnown e.1 = false → e.1.Showable

/-- Settings are read as long as their keys can be shown. -/
theorem shownWhen_ofEntries (entries : List (Yaml.Value × Yaml.Value)) :
    ShownWhen (KeysShowable entries) (ofEntries entries) := by
  have hothers := ShownWhen.mapM
    (fun e : Yaml.Value × Yaml.Value => e.1.shownWhen_text.bind_pure fun t => (t, e.2))
    (entries.filter fun e => !isKnown e.1)
  refine (hothers.bind_pure _).congr ?_
  simp only [KeysShowable, List.mem_filter, Bool.not_eq_true', and_imp]

/-- Whether this keeps the settings of a block from being read: it is a fault of the loader, or the
block is a mapping and a key that is not known cannot be shown. -/
def Unreadable [Yaml.Loader] (block : Text) (f : Fault) : Prop :=
  Yaml.Loader.load block = .error (.fault f) ∨ f = .integerShown ∧
    ∃ entries, Yaml.Loader.load block = .ok (.map entries) ∧ ¬ KeysShowable entries

theorem read?_eq_error_iff [Yaml.Loader] {block : Text} {f : Fault} :
    read? block = .error f ↔ Unreadable block f := by
  rw [read?, Unreadable]
  cases Yaml.Loader.load block with
  | error r => cases r <;> simp
  | ok v =>
    cases v with
    | map entries =>
      simp only [map_eq_error_iff, (shownWhen_ofEntries entries).eq_error_iff]
      simp
    | _ => simp

/-- Settings that are read are there exactly if the block is a mapping. -/
theorem eq_none_iff_of_read? [Yaml.Loader] {block : Text} {m : Option Metadata}
    (h : read? block = .ok m) :
    m = none ↔ ¬ ∃ entries, Yaml.Loader.load block = .ok (.map entries) := by
  rw [read?] at h
  split at h
  · next entries hload =>
    obtain ⟨_, _, rfl⟩ := map_eq_ok_iff.1 h
    simp [hload]
  · next v hv hload =>
    cases h
    refine iff_of_true rfl ?_
    rintro ⟨entries, he⟩
    exact hv entries (Except.ok.inj (hload.symm.trans he))
  · next hload =>
    cases h
    simp [hload]
  · cases h

end Metadata

namespace Document

/-- The block of settings at the head of a text. -/
def settings? (text : Text) : Option Text :=
  (Frontmatter.split? (withoutMark text)).map (·.block)

/-- **What keeps a document from being read** is the block of its settings. -/
theorem read_eq_error_iff [Yaml.Loader] {text : Text} {f : Fault} :
    read text = .error f ↔ ∃ block ∈ settings? text, Metadata.Unreadable block f := by
  have hhead : read text = .error f ↔ head (withoutMark text) = .error f := by
    rw [read, bind_eq_error_iff]
    refine or_iff_left ?_
    rintro ⟨_, _, h⟩
    cases h
  rw [hhead, head, settings?]
  cases Frontmatter.split? (withoutMark text) with
  | none =>
    constructor
    · intro h
      cases h
    · rintro ⟨_, h, _⟩
      cases h
  | some m =>
    simp only [Option.map_some, Option.mem_def, Option.some.injEq, exists_eq_left',
      ← Metadata.read?_eq_error_iff]
    exact map_eq_error_iff

/-- **A document without metadata** has no settings at its head that are a mapping. -/
theorem metadata_eq_none_iff [Yaml.Loader] {text : Text} {d : Document} (h : read text = .ok d) :
    d.metadata = none ↔ ¬ ∃ block ∈ settings? text,
      ∃ entries, Yaml.Loader.load block = .ok (.map entries) := by
  obtain ⟨m, start, hhead, rfl⟩ := read_eq_ok h
  rw [settings?]
  rw [head] at hhead
  cases hsplit : Frontmatter.split? (withoutMark text) with
  | none =>
    rw [hsplit] at hhead
    cases hhead
    refine iff_of_true rfl ?_
    rintro ⟨_, h, _⟩
    cases h
  | some matter =>
    rw [hsplit] at hhead
    obtain ⟨m', hread, heq⟩ := map_eq_ok_iff.1 hhead
    obtain ⟨rfl, -⟩ := Prod.mk.inj heq
    simp only [Option.map_some, Option.mem_def, Option.some.injEq, exists_eq_left']
    exact Metadata.eq_none_iff_of_read? hread

end Document

end ScriptAudit
