import ScriptAudit.Proofs.Run.Precedence
import ScriptAudit.Proofs.Text.Search
import Mathlib.Data.List.DropRight

/-!
# Values in quotation marks

A value in a file of assignments may stand in quotation marks, so that blanks at its ends belong to
it. What is assigned is the value between the marks, except for apostrophes: they are taken away at
the ends of a value also where they stand inside the marks.

* `Text.trimOf_eq_self_iff` — when there is nothing to take away.
* `Configuration.assignment?_quoted` — what a line with a value in quotation marks assigns.
* `Configuration.load_quoted` — what is configured by such a line, and when it is the value itself.
-/

namespace ScriptAudit

namespace Text

variable {p : Char → Bool} {a : Char} {t u v : Text}

theorem trimOf_eq_rdropWhile (p : Char → Bool) (t : Text) :
    trimOf p t = (t.dropWhile p).rdropWhile p := rfl

/-- There is nothing to take away when neither end satisfies `p`. -/
theorem trimOf_eq_self_iff : trimOf p t = t ↔
    (∀ c ∈ t.head?, p c = false) ∧ ∀ c ∈ t.getLast?, p c = false := by
  rw [trimOf_eq_rdropWhile]
  constructor
  · intro h
    have hlength := congrArg List.length h
    have hright : (t.dropWhile p).rdropWhile p <+: t.dropWhile p :=
      List.rdropWhile_prefix p (t.dropWhile p)
    have hleft : t.dropWhile p <:+ t := List.dropWhile_suffix p
    have hdrop : t.dropWhile p = t := by
      have := hright.length_le
      have := hleft.length_le
      exact hleft.eq_of_length (by omega)
    rw [hdrop] at h
    constructor
    · intro c hc
      rw [← hdrop] at hc
      exact eq_false_of_mem_head?_dropWhile hc
    · intro c hc
      rw [← h] at hc
      have hne : t.rdropWhile p ≠ [] := by
        intro hnil
        rw [hnil] at hc
        cases hc
      rw [List.getLast?_eq_getLast_of_ne_nil hne] at hc
      cases hc
      exact Bool.eq_false_iff.2 (List.rdropWhile_last_not p t hne)
  · rintro ⟨hhead, hlast⟩
    have hdrop : t.dropWhile p = t := by
      cases t with
      | nil => rfl
      | cons c cs => rw [List.dropWhile_cons, hhead c rfl, if_neg Bool.false_ne_true]
    rw [hdrop, List.rdropWhile_eq_self_iff]
    intro hne
    exact Bool.eq_false_iff.1 (hlast _ (List.getLast?_eq_getLast_of_ne_nil hne))

theorem trimOf_beq_eq_self_iff :
    trimOf (· == a) t = t ↔ t.head? ≠ some a ∧ t.getLast? ≠ some a := by
  have hne (o : Option Char) : (∀ c ∈ o, (c == a) = false) ↔ o ≠ some a := by
    cases o <;> simp
  rw [trimOf_eq_self_iff, hne, hne]

/-- Of a text between two marks the text is left, if it does not hold the mark itself. -/
theorem trimOf_marks (hv : a ∉ v) : trimOf (· == a) (a :: (v ++ [a])) = v := by
  have hne : ∀ c ∈ v, (c == a) = false := by
    intro c hc
    exact beq_false_of_ne fun h => hv (h ▸ hc)
  cases v with
  | nil => simp [trimOf]
  | cons c cs =>
    have hdrop : (a :: (c :: cs ++ [a])).dropWhile (· == a) = c :: cs ++ [a] := by
      simp [hne c List.mem_cons_self]
    have hlast : (c :: cs).rdropWhile (· == a) = c :: cs := by
      rw [List.rdropWhile_eq_self_iff]
      intro hnil
      exact Bool.eq_false_iff.1 (hne _ (List.getLast_mem hnil))
    rw [trimOf_eq_rdropWhile, hdrop]
    exact (List.rdropWhile_concat_pos (· == a) _ a (beq_self_eq_true a)).trans hlast

/-- A single character is found where it stands first. -/
theorem cut?_singleton (hu : a ∉ u) (v : Text) : cut? [a] (u ++ a :: v) = some (u, v) := by
  induction u with
  | nil => exact cut?_of_after? (List.cons_ne_nil a v) (after?_append [a] v)
  | cons c cs ih =>
    obtain ⟨hc, hcs⟩ := not_or.1 (List.mem_cons.not.1 hu)
    have hnone : after? [a] (c :: (cs ++ a :: v)) = none := by
      rw [after?, if_neg hc]
    rw [List.cons_append, cut?, hnone, ih hcs]
    rfl

end Text

namespace Configuration

/-- The line that assigns a value in quotation marks to a key. -/
def quoted (k : Key) (v : Text) : Text := k.name ++ '=' :: '"' :: (v ++ ['"'])

theorem notMem_name (k : Key) : '=' ∉ k.name := by
  cases k <;> decide

/-- No name of a key is changed by taking blanks away, and none begins with a number sign. -/
theorem exists_name_eq_cons (k : Key) : ∃ c cs, k.name = c :: cs ∧ c ≠ '#' ∧ isBlank c = false ∧
    Text.trim k.name = k.name := by
  cases k <;> exact ⟨_, _, rfl, by decide⟩

/-- **A line with a value in quotation marks** assigns the value without the apostrophes at its
ends. -/
theorem assignment?_quoted (k : Key) {v : Text} (hv : '"' ∉ v) :
    assignment? (quoted k v) = some (k.name, Text.trimOf (· == '\'') v) := by
  obtain ⟨c, cs, hname, hsharp, hc, htrimName⟩ := exists_name_eq_cons k
  have hmark : isBlank '"' = false := by decide
  have hhead : (quoted k v).head? = some c := by
    rw [quoted, hname]
    rfl
  have hlast : (quoted k v).getLast? = some '"' := by
    simp [quoted, List.getLast?_cons]
  have htrim : Text.trim (quoted k v) = quoted k v := by
    apply Text.trim_eq_self
    · rw [hhead]
      rintro d ⟨⟩
      exact hc
    · rw [hlast]
      rintro d ⟨⟩
      exact hmark
  have hvalue : Text.trim ('"' :: (v ++ ['"'])) = '"' :: (v ++ ['"']) := by
    apply Text.trim_eq_self
    · rintro d ⟨⟩
      exact hmark
    · rw [← List.cons_append, List.getLast?_concat]
      rintro d ⟨⟩
      exact hmark
  rw [assignment?, htrim, hhead, if_neg (by simpa using hsharp), quoted,
    Text.cut?_singleton (notMem_name k), Option.map_some]
  dsimp only
  rw [htrimName, hvalue, Text.trimOf_marks hv]

section

variable {files : Files} {environment : Bindings} {project t : Text} {above below : List Text}
  {k : Key} {v : Text}

/-- **A value in quotation marks.** Where a key is not set in the environment and the file that
counts assigns it a value in quotation marks, as its last assignment, the value is configured
without the apostrophes at its ends. So it is configured as it has been written exactly when it
neither begins nor ends with an apostrophe. -/
theorem load_quoted (hsource : Source files (candidates environment project) t)
    (hlines : Text.lines t = above ++ quoted k v :: below) (hbelow : Unassigned k.name below)
    (henvironment : environment.get? k.name = none) (hv : '"' ∉ v) :
    ∃ bs, load files environment project = .ok bs ∧
      bs.get? k.name = some (v.trimOf (· == '\'')) ∧
      (bs.get? k.name = some v ↔ v.head? ≠ some '\'' ∧ v.getLast? ≠ some '\'') := by
  have htext : firstText files (candidates environment project) = .ok (some t) :=
    firstText_eq_ok_iff.2 hsource
  have hlast : LastAssigned k.name (v.trimOf (· == '\'')) (Text.lines t) :=
    ⟨above, quoted k v, below, hlines, assignment?_quoted k hv, hbelow⟩
  refine ⟨overlay environment (assignments t), load_eq_ok_iff.2 ⟨some t, htext, rfl⟩, ?_⟩
  have hvalue : (overlay environment (assignments t)).get? k.name =
      some (v.trimOf (· == '\'')) := by
    rw [get?_overlay, if_pos (name_mem k), henvironment, Option.none_or]
    exact (get?_assignments t).2 hlast
  refine ⟨hvalue, ?_⟩
  rw [hvalue, Option.some_inj, Text.trimOf_beq_eq_self_iff]

end

/-- A directory with a password in quotation marks in the file of assignments. -/
def guarded (v : Text) : Files where
  root := .directory [(fileName, holding (quoted .password v ++ ['\n']))]

/-- Blanks at the ends, another equals sign, a number sign and an apostrophe within a password. -/
def intricate : Text := " a='b# "

/-- Such a password is configured as it has been written. -/
theorem load_quoted_intricate : Source (guarded intricate) (candidates [] "/project".toList)
      (quoted .password intricate ++ ['\n']) ∧
    ∃ bs, load (guarded intricate) [] "/project".toList = .ok bs ∧
      bs.get? Key.password.name = some intricate := by
  have hsource : Source (guarded intricate) (candidates [] "/project".toList)
      (quoted .password intricate ++ ['\n']) :=
    ⟨[], Path.ofText fileName, _, rfl, by rintro q ⟨⟩, rfl, rfl⟩
  have hlines : Text.lines (quoted .password intricate ++ ['\n']) =
      [] ++ quoted .password intricate :: [] := rfl
  obtain ⟨bs, hbs, -, hvalue⟩ := load_quoted hsource hlines (by rintro l ⟨⟩) rfl (by decide)
  exact ⟨hsource, bs, hbs, hvalue.2 (by decide)⟩

/-- A password that begins and ends with an apostrophe loses both of them. -/
theorem load_quoted_apostrophes :
    Source (guarded "'secret'".toList) (candidates [] "/project".toList)
      (quoted .password "'secret'".toList ++ ['\n']) ∧
    Text.lines (quoted .password "'secret'".toList ++ ['\n']) =
      [quoted .password "'secret'".toList] ∧
    load (guarded "'secret'".toList) [] "/project".toList =
      .ok [(Key.password.name, "secret".toList)] :=
  ⟨⟨[], Path.ofText fileName, _, rfl, by rintro q ⟨⟩, rfl, rfl⟩, rfl, rfl⟩

end Configuration

end ScriptAudit
