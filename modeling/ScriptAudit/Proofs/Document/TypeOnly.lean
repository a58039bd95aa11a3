import ScriptAudit.Document.Basic
import ScriptAudit.Proofs.Veil.Frontmatter
import ScriptAudit.Proofs.Yaml.TypeOnly

/-!
# Documents that give nothing but their type

The text of such a document is two delimiters with one line between them (`Document.typeOnly`). It
is read as a document whose type is the value that the loader gives to the word on that line,
whatever that value is (`Document.read_typeOnly`).
-/

namespace ScriptAudit

open Yaml

/-- The line gives the type. -/
theorem Metadata.read?_block [Loader] {w : Text} {v : Value}
    (hload : Loader.load (TypeOnly.block w) = .ok (.map [(.str TypeOnly.key, v)])) :
    read? (TypeOnly.block w) = .ok (some ⟨v, .null, .null, []⟩) := by
  rw [read?, hload]
  rfl

/-- The line that closes a block. -/
def Frontmatter.closing : Text := ['-', '-', '-', '\n']

namespace Document

/-- The text that gives nothing but a type. -/
def typeOnly (w : Text) : Text := ['-', '-', '-'] ++ (TypeOnly.block w ++ Frontmatter.closing)

end Document

/-- No delimiter stands in a block before its end. -/
theorem Frontmatter.cut?_block {w : Text} (hw : ∀ d ∈ w, d.isAlphanum = true) :
    cut? false (TypeOnly.block w ++ closing) = some (TypeOnly.block w, []) := by
  have hline : ∀ d ∈ ['y', 'p', 'e', ':', ' '] ++ w, d ≠ '\n' := by
    intro d hd
    rcases List.mem_append.1 hd with hd | hd
    · rintro rfl
      exact absurd hd (by decide)
    · exact ne_of_isAlphanum (hw d hd) (by decide)
  have hblock : TypeOnly.block w ++ closing =
      '\n' :: 't' :: (['y', 'p', 'e', ':', ' '] ++ w ++ '\n' :: closing) := by
    simp [TypeOnly.block]
  have hend : cut? false ('\n' :: closing) = some (['\n'], []) := by decide
  rw [hblock]
  show ((cut? false _).map _).map _ = _
  rw [cut?_append_of_forall hline, hend]
  simp [TypeOnly.block]

theorem Frontmatter.split?_typeOnly {w : Text} (hw : ∀ d ∈ w, d.isAlphanum = true) :
    split? (Document.typeOnly w) = some ⟨TypeOnly.block w, []⟩ := by
  have hdelimiter : delimiter? (Document.typeOnly w) = some 3 := by rfl
  rw [split?, hdelimiter]
  show (cut? false (TypeOnly.block w ++ closing) >>= _) = _
  rw [cut?_block hw]
  rfl

/-- **A document that gives nothing but its type is read as one of this type.** -/
theorem Document.read_typeOnly [Loader] {w : Text} (hw : ∀ d ∈ w, d.isAlphanum = true) {v : Value}
    (hload : Loader.load (TypeOnly.block w) = .ok (.map [(.str TypeOnly.key, v)])) :
    ∃ d, read (typeOnly w) = .ok d ∧ d.metadata = some ⟨v, .null, .null, []⟩ := by
  have hmark : withoutMark (typeOnly w) = typeOnly w := rfl
  rw [read, hmark, head, Frontmatter.split?_typeOnly hw]
  simp only [Metadata.read?_block hload]
  exact ⟨_, rfl, rfl⟩

end ScriptAudit
