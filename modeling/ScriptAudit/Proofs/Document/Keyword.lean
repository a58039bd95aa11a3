import Mathlib.Data.List.Nodup
import ScriptAudit.Document.Command
import ScriptAudit.Proofs.Text.Keyword
import ScriptAudit.Proofs.Text.Words

/-!
# Which keyword a line begins with

A line begins with a keyword if its longest run of word characters is the name of the keyword, in any
case (`Keyword.isSome_after?_iff`). No two names are the same when case does not count, so a line
begins with one keyword at most (`Keyword.ofText?_eq_some_iff`). The command that is read from it is
the same in whatever order keywords are tried (`Command.keyword_of_ofLine?`).
-/

namespace ScriptAudit

namespace Keyword

/-- Names of keywords are made of letters. -/
theorem isAlpha_name (k : Keyword) : ∀ c ∈ k.name, (foldLetter c).isAlpha = true := by
  cases k <;> exact Text.forall_mem_of_all (by decide)

theorem mem_all (k : Keyword) : k ∈ all := by
  cases k <;> decide

/-- No two names are the same when case does not count. -/
theorem eq_of_map_name_eq {k k' : Keyword}
    (h : k.name.map foldLetter = k'.name.map foldLetter) : k = k' := by
  have hnodup : (all.map fun k => k.name.map foldLetter).Nodup := by decide +kernel
  exact List.inj_on_of_nodup_map hnodup k.mem_all k'.mem_all h

theorem after?_eq (k : Keyword) (t : Text) :
    k.after? t = (Text.afterKeyword? k.name t).filter (fun rest => !rest.head?.any isWord) := by
  rw [after?]
  cases Text.afterKeyword? k.name t with
  | none => rfl
  | some rest =>
    cases hword : rest.head?.any isWord <;> simp [Option.filter, hword]

/-- A text begins with a keyword if its longest run of word characters is the name of the keyword. -/
theorem isSome_after?_iff {k : Keyword} {t : Text} :
    (k.after? t).isSome = true ↔ (t.takeWhile isWord).map foldLetter = k.name.map foldLetter := by
  rw [after?_eq]
  constructor
  · intro h
    obtain ⟨rest, hrest⟩ := Option.isSome_iff_exists.1 h
    obtain ⟨hread, hword⟩ := Option.filter_eq_some_iff.1 hrest
    obtain ⟨word, rfl, hname⟩ := Text.afterKeyword?_eq_some.1 hread
    have hend : ∀ c ∈ rest.head?, isWord c = false := by
      intro c hc
      rw [Option.mem_def.1 hc] at hword
      simpa using hword
    have hletters := Text.isWord_of_map_foldLetter_eq k.isAlpha_name hname
    rw [Text.takeWhile_append_of_head? hletters hend, hname]
  · intro h
    have hread : Text.afterKeyword? k.name t = some (t.dropWhile isWord) :=
      Text.afterKeyword?_eq_some.2 ⟨_, List.takeWhile_append_dropWhile.symm, h⟩
    have hend : (t.dropWhile isWord).head?.any isWord = false := by
      cases hhead : (t.dropWhile isWord).head? with
      | none => rfl
      | some c => exact Text.eq_false_of_mem_head?_dropWhile hhead
    simp [hread, hend]

/-- A text begins with one keyword at most. -/
theorem eq_of_isSome_after? {k k' : Keyword} {t : Text} (h : (k.after? t).isSome = true)
    (h' : (k'.after? t).isSome = true) : k = k' := by
  rw [isSome_after?_iff] at h h'
  exact eq_of_map_name_eq (h.symm.trans h')

/-! ## Tables of keywords -/

/-- The first keyword of a table that a text begins with. -/
def firstIn? (table : List Keyword) (t : Text) : Option Keyword :=
  table.find? fun k => (k.after? t).isSome

/-- What is found in a table is the keyword of the text, if it is there. -/
theorem firstIn?_eq_some_iff {table : List Keyword} {t : Text} {k : Keyword} :
    firstIn? table t = some k ↔ k ∈ table ∧ (k.after? t).isSome = true := by
  constructor
  · intro h
    exact ⟨List.mem_of_find?_eq_some h, List.find?_some (p := fun k => (after? k t).isSome) h⟩
  · rintro ⟨hmem, hbegins⟩
    cases hfound : firstIn? table t with
    | none => exact absurd hbegins (List.find?_eq_none.1 hfound k hmem)
    | some k' =>
      have hbegins' : (k'.after? t).isSome = true :=
        List.find?_some (p := fun k => (after? k t).isSome) hfound
      rw [eq_of_isSome_after? hbegins hbegins']

/-- The order of a table does not count. -/
theorem firstIn?_eq_of_perm {table table' : List Keyword} (h : table.Perm table') (t : Text) :
    firstIn? table t = firstIn? table' t := by
  refine Option.ext fun k => ?_
  rw [firstIn?_eq_some_iff, firstIn?_eq_some_iff, h.mem_iff]

/-! ## The keyword of a text -/

/-- **The keyword of a text.** It is the one whose name is the longest run of word characters at the
beginning of the text. -/
theorem ofText?_eq_some_iff {k : Keyword} {t : Text} :
    ofText? t = some k ↔ (t.takeWhile isWord).map foldLetter = k.name.map foldLetter := by
  rw [← isSome_after?_iff]
  exact firstIn?_eq_some_iff.trans (and_iff_right k.mem_all)

/-- A keyword that is followed by no word character is the keyword of the text. -/
theorem ofText?_of_afterKeyword? {k : Keyword} {t rest : Text}
    (h : Text.afterKeyword? k.name t = some rest) (hend : ∀ c ∈ rest.head?, isWord c = false) :
    ofText? t = some k := by
  obtain ⟨word, rfl, hname⟩ := Text.afterKeyword?_eq_some.1 h
  have hletters := Text.isWord_of_map_foldLetter_eq k.isAlpha_name hname
  rw [ofText?_eq_some_iff, Text.takeWhile_append_of_head? hletters hend, hname]

end Keyword

namespace Command

/-- The command that a line with this keyword is. -/
def withKeyword (k : Keyword) (t : Text) (line : Nat) : Command where
  keyword := k
  text := t
  line := line
  target := targetOf? k t
  into := (Text.wordAfter "Into").first? t
  using_ := usingClause.first? t
  condition := ((whenClause.first? t).map Text.trim).filter (!·.isEmpty)
  catchesError := (Text.wholeWord "CatchError").found t
  expectsFailure := (Text.wholeWord "ExpectFail").found t
  body := none

/-- Reads a line by the first keyword of a table that it begins with. -/
def ofLineBy? (table : List Keyword) (t : Text) (line : Nat) : Option Command :=
  (Keyword.firstIn? table t).map fun k => withKeyword k t line

theorem ofLineBy?_all (t : Text) (line : Nat) : ofLineBy? Keyword.all t line = ofLine? t line := by
  show (Keyword.ofText? t).map (fun k => withKeyword k t line) = ofLine? t line
  rw [ofLine?]
  cases Keyword.ofText? t <;> rfl

theorem map_keyword_ofLine? (t : Text) (line : Nat) :
    (ofLine? t line).map keyword = Keyword.ofText? t := by
  rw [← ofLineBy?_all, ofLineBy?, Option.map_map]
  exact Option.map_id'

/-- **Keywords are told apart.** A line is a command with some keyword exactly if its longest run of
word characters is the name of the keyword, when case does not count. So it begins with one keyword
at most, and is read as the same command by the keywords in any order. -/
theorem keyword_of_ofLine? (t : Text) (line : Nat) :
    (∀ k, (ofLine? t line).map keyword = some k ↔
        (t.takeWhile isWord).map foldLetter = k.name.map foldLetter) ∧
      (∀ k k' : Keyword, (k.after? t).isSome = true → (k'.after? t).isSome = true → k = k') ∧
        ∀ table : List Keyword, table.Perm Keyword.all → ofLineBy? table t line = ofLine? t line := by
  refine ⟨fun k => ?_, fun k k' => Keyword.eq_of_isSome_after?, fun table h => ?_⟩
  · rw [map_keyword_ofLine?, Keyword.ofText?_eq_some_iff]
  · rw [← ofLineBy?_all, ofLineBy?, Keyword.firstIn?_eq_of_perm h]
    rfl

/-- A keyword with two long s that a shorter keyword begins, and the keywords in the opposite order. -/
theorem keyword_of_ofLine?_reversed :
    (ofLine? "a\u017f\u017fERTjson \x7b$a\x7d Into b" 7).map keyword = some .assertJson ∧
      Keyword.all.reverse.Perm Keyword.all ∧
        ofLineBy? Keyword.all.reverse "a\u017f\u017fERTjson \x7b$a\x7d Into b" 7 =
          ofLine? "a\u017f\u017fERTjson \x7b$a\x7d Into b" 7 := by
  obtain ⟨hkeyword, -, htable⟩ := keyword_of_ofLine? "a\u017f\u017fERTjson \x7b$a\x7d Into b" 7
  exact ⟨(hkeyword .assertJson).2 (by decide), List.reverse_perm _, htable _ (List.reverse_perm _)⟩

end Command

end ScriptAudit
