import ScriptAudit.Proofs.Document.Bodies
import ScriptAudit.Proofs.Veil.Command
import ScriptAudit.Proofs.Veil.Layout

/-!
# A password in a script

Two versions of a line are read alike when both are passed over or neither is, when they count as
many brackets, begin with the same character, and are commands that the checks see alike
(`Script.ReadAlike`). Lines that differ in a password are (`Script.readAlike_enclosed`). Reading a
code block follows its lines, so scripts with the two versions of a line have the same commands as
far as the checks see (`Script.forall₂_commands`).
-/

namespace ScriptAudit

namespace Script

open Command (Alike ofLine?)

variable {p q : Text}

/-! ## Brackets -/

/-- What is neither a bracket nor belongs to a string is passed over. -/
theorem balance_plain_append {u : Text} (hu : ∀ c ∈ u, c ∉ '\\' :: marks) (t : Text) :
    balance .outside (u ++ t) = balance .outside t ∧ balance .inside (u ++ t) = balance .inside t := by
  have hmarks : ∀ c ∈ u, c ∉ marks := fun c hc hmark => hu c hc (List.mem_cons_of_mem _ hmark)
  have hinside : ∀ c ∈ u, c ≠ '"' ∧ c ≠ '\\' := by
    refine fun c hc => ⟨?_, ?_⟩ <;> (rintro rfl; exact hu _ hc (by decide))
  obtain ⟨hafter, hbalance⟩ := after_outside_eq hmarks
  exact ⟨by rw [balance_append, hafter, hbalance, Int.zero_add], (after_inside_append hinside t).2⟩

theorem balance_enclosed (hp : IsPassword p) (hq : IsPassword q) (place : Place) (t s : Text) :
    balance place (t ++ (enclosed p ++ s)) = balance place (t ++ (enclosed q ++ s)) := by
  have hplain {p : Text} (hp : IsPassword p) : ∀ c ∈ enclosed p, c ∉ '\\' :: marks := by
    intro c hc hmem
    have hmarks : ∀ a ∈ '\\' :: marks, a.isAlphanum = false ∧ a ≠ ':' ∧ a ≠ '@' :=
      Text.forall_mem_of_all (by decide)
    obtain ⟨halphanum, hcolon, hat⟩ := hmarks c hmem
    exact hp.notMem halphanum hcolon hat hc
  rw [balance_append, balance_append place t]
  congr 1
  have hp' := balance_plain_append (hplain hp) s
  have hq' := balance_plain_append (hplain hq) s
  cases place.after t with
  | outside => exact hp'.1.trans hq'.1.symm
  | inside => exact hp'.2.trans hq'.2.symm
  | escaped =>
    -- the backslash is followed by the colon
    exact (balance_plain_append (fun c hc => hplain hp c (List.mem_cons_of_mem _ hc)) s).2.trans
      (balance_plain_append (fun c hc => hplain hq c (List.mem_cons_of_mem _ hc)) s).2.symm

/-! ## Lines -/

/-- Two lines that are read alike. -/
structure ReadAlike (l l' : Text) : Prop where
  isIdle_eq : isIdle l = isIdle l'
  balance_eq : balance .outside l = balance .outside l'
  head?_trim_eq : (Text.trim l).head? = (Text.trim l').head?
  command : ∀ n, Option.Rel Alike (ofLine? (Text.trim l) n) (ofLine? (Text.trim l') n)

theorem ReadAlike.refl (l : Text) : ReadAlike l l where
  isIdle_eq := rfl
  balance_eq := rfl
  head?_trim_eq := rfl
  command n := by
    cases ofLine? (Text.trim l) n with
    | none => exact .none
    | some c => exact .some (.refl c)

theorem isIdle_enclosed (t s : Text) :
    isIdle (t ++ (enclosed p ++ s)) = isIdle (t ++ (enclosed q ++ s)) := by
  rw [isIdle, isIdle, Text.trim_enclosed, Text.trim_enclosed, enclosed_append, enclosed_append]
  -- two characters tell a comment
  cases Text.trimLeft t with
  | nil => rfl
  | cons c t => cases t <;> simp [isComment, List.isPrefixOf]

/-- Lines that differ in a password are read alike. -/
theorem readAlike_enclosed (hp : IsPassword p) (hq : IsPassword q) (t s : Text) :
    ReadAlike (t ++ (enclosed p ++ s)) (t ++ (enclosed q ++ s)) where
  isIdle_eq := isIdle_enclosed t s
  balance_eq := balance_enclosed hp hq .outside t s
  head?_trim_eq := by
    rw [Text.trim_enclosed, Text.trim_enclosed]
    cases Text.trimLeft t <;> rfl
  command n := by
    rw [Text.trim_enclosed, Text.trim_enclosed]
    exact Command.ofLine?_enclosed hp hq _ _ n

/-! ## Bodies -/

variable {ls ls' : List Text}

theorem length_takeWhile_isIdle (h : List.Forall₂ ReadAlike ls ls') :
    (ls.takeWhile isIdle).length = (ls'.takeWhile isIdle).length := by
  induction h with
  | nil => rfl
  | @cons l l' ls ls' hl _ ih =>
    rw [List.takeWhile_cons, List.takeWhile_cons, hl.isIdle_eq]
    split
    · rw [List.length_cons, List.length_cons, ih]
    · rfl

theorem length_balanced? (h : List.Forall₂ ReadAlike ls ls') (depth : Int) :
    (balanced? depth ls).map List.length = (balanced? depth ls').map List.length := by
  induction h generalizing depth with
  | nil => rfl
  | @cons l l' ls ls' hl _ ih =>
    rw [balanced?, balanced?, hl.balance_eq]
    show Option.map List.length (if depth + balance .outside l' ≤ 0 then _ else _) =
      Option.map List.length (if depth + balance .outside l' ≤ 0 then _ else _)
    split
    · rfl
    · simpa [Function.comp_def] using congrArg (Option.map (· + 1)) (ih (depth + balance .outside l'))

/-- Bodies take as many lines. -/
theorem length_body? (h : List.Forall₂ ReadAlike ls ls') :
    (body? ls).map (fun b => (b.1, b.2.length)) = (body? ls').map fun b => (b.1, b.2.length) := by
  have hidle := length_takeWhile_isIdle h
  have hdrop : List.Forall₂ ReadAlike (ls.drop (ls.takeWhile isIdle).length)
      (ls'.drop (ls'.takeWhile isIdle).length) := by
    rw [← hidle]
    exact List.forall₂_drop _ h
  cases hrest : ls.drop (ls.takeWhile isIdle).length with
  | nil =>
    rw [hrest, List.forall₂_nil_left_iff] at hdrop
    rw [body?_of_drop_nil hrest, body?_of_drop_nil hdrop]
  | cons l rest =>
    rw [hrest] at hdrop
    obtain ⟨l', rest', hl, hmore, hrest'⟩ := List.forall₂_cons_left_iff.1 hdrop
    rw [body?_of_drop_cons hrest, body?_of_drop_cons hrest', hl.head?_trim_eq, ← hidle]
    split
    · have hlength := congrArg (Option.map fun n => ((ls.takeWhile isIdle).length, n))
        (length_balanced? (.cons hl hmore) 0)
      simpa [Function.comp_def] using hlength
    · rfl

/-! ## Commands -/

/-- Lines that are read alike give commands that the checks see alike. -/
theorem forall₂_commandsFrom {ls ls' : List (Nat × Text)}
    (h : List.Forall₂ (fun a b => a.1 = b.1 ∧ ReadAlike a.2 b.2) ls ls') (skip : Nat) :
    List.Forall₂ Alike (commandsFrom skip ls) (commandsFrom skip ls') := by
  induction h generalizing skip with
  | nil => cases skip <;> exact .nil
  | @cons a b ls ls' hab hrest ih =>
    cases skip with
    | succ skip => exact ih skip
    | zero =>
      obtain ⟨number, l⟩ := a
      obtain ⟨number', l'⟩ := b
      obtain ⟨rfl, hl⟩ := hab
      have hbody := length_body? (List.forall₂_map_left_iff.2 (List.forall₂_map_right_iff.2
        (hrest.imp fun _ _ h => h.2)) : List.Forall₂ ReadAlike (ls.map Prod.snd) (ls'.map Prod.snd))
      have hcommand := hl.command number
      cases hidle : isIdle l with
      | true =>
        rw [commandsFrom_pass ls (Or.inl hidle), commandsFrom_pass ls' (Or.inl (hl.isIdle_eq ▸ hidle))]
        exact ih 0
      | false =>
        have hidle' : isIdle l' = false := hl.isIdle_eq ▸ hidle
        generalize hc : ofLine? (Text.trim l) number = c at hcommand
        generalize hc' : ofLine? (Text.trim l') number = c' at hcommand
        cases hcommand with
        | none =>
          rw [commandsFrom_pass ls (Or.inr hc), commandsFrom_pass ls' (Or.inr hc')]
          exact ih 0
        | some hcc =>
          cases hread : body? (ls.map Prod.snd) with
          | none =>
            rw [hread, Option.map_none, eq_comm, Option.map_eq_none_iff] at hbody
            rw [commandsFrom_bare ls hidle hc hread, commandsFrom_bare ls' hidle' hc' hbody]
            exact .cons hcc (ih 0)
          | some body =>
            rw [hread, Option.map_some, eq_comm, Option.map_eq_some_iff] at hbody
            obtain ⟨body', hread', heq⟩ := hbody
            obtain ⟨hskip, hlength⟩ := Prod.mk.inj heq
            rw [commandsFrom_full ls hidle hc hread, commandsFrom_full ls' hidle' hc' hread', hskip,
              hlength, ← commandsFrom_eq_drop, ← commandsFrom_eq_drop]
            exact .cons (hcc.withBody _ _) (ih _)

/-- Scripts with the two versions of a line have the same commands as far as the checks see. -/
theorem forall₂_commands {l l' : Text} (hl : ReadAlike l l') {b b' : CodeBlock}
    (h : CodeBlock.Twin l l' b b') : List.Forall₂ Alike (commands b) (commands b') := by
  refine forall₂_commandsFrom (h.lines_twin.imp fun a a' ha => ⟨ha.number_eq, ?_⟩) 0
  rcases ha.text_twin with heq | ⟨heq, heq'⟩
  · rw [heq]
    exact .refl _
  · rw [heq, heq']
    exact hl

end Script

end ScriptAudit
