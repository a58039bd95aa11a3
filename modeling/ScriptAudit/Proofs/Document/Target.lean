import ScriptAudit.Check.Commands
import ScriptAudit.Proofs.Document.Keyword

/-!
# Targets

The target of a command is the first word behind the keyword that is no flag. When all words there
are flags, the last one is taken for the target, which is why a target that is missing goes unnoticed
behind a flag. Main statement: `Command.target_of_words`, with the counterexample
`Command.target_of_lone_flag` to the rule that a flag is never a target.

* `Command.targetAmong?_eq` — the target among words.
* `Command.ofLine?_of_afterKeyword?` — a line that begins with a keyword is a command.
* `Check.reports_missing_target_iff` — when a missing target is reported.
-/

namespace ScriptAudit

namespace Command

/-! ## The target among words -/

theorem targetAmong?_of_not_isFlag {w : Text} (hw : isFlag w = false) (after : List Text) :
    targetAmong? (w :: after) = some w := by
  cases after with
  | nil => rfl
  | cons w' after => simp [targetAmong?, hw]

theorem targetAmong?_cons (w : Text) {after : List Text} (h : after ≠ []) :
    targetAmong? (w :: after) = if isFlag w then targetAmong? after else some w := by
  obtain ⟨w', after, rfl⟩ := List.exists_cons_of_ne_nil h
  rfl

/-- The first word that is no flag, or else the last word. -/
theorem targetAmong?_eq (ws : List Text) :
    targetAmong? ws = (ws.find? (!isFlag ·)).or ws.getLast? := by
  induction ws with
  | nil => rfl
  | cons w ws ih =>
    cases hw : isFlag w with
    | false =>
      rw [targetAmong?_of_not_isFlag hw, List.find?_cons_of_pos (by simp [hw]), Option.some_or]
    | true =>
      rw [List.find?_cons_of_neg (by simp [hw])]
      cases ws with
      | nil => rfl
      | cons w' ws => rw [targetAmong?_cons w (by simp), if_pos hw, ih, List.getLast?_cons_cons]

/-! ## Commands -/

/-- A line that begins with a keyword and no further word character is a command. -/
theorem ofLine?_of_afterKeyword? {k : Keyword} {t rest : Text}
    (h : Text.afterKeyword? k.name t = some rest) (hend : ∀ c ∈ rest.head?, isWord c = false)
    (line : Nat) :
    ofLine? t line = some {
      keyword := k
      text := t
      line
      target := targetOf? k t
      into := (Text.wordAfter "Into").first? t
      using_ := usingClause.first? t
      condition := ((whenClause.first? t).map Text.trim).filter (!·.isEmpty)
      catchesError := (Text.wholeWord "CatchError").found t
      expectsFailure := (Text.wholeWord "ExpectFail").found t
      body := none } := by
  rw [ofLine?, Keyword.ofText?_of_afterKeyword? h hend]
  rfl

/-- The target is looked for among the words behind the keyword. -/
theorem targetOf?_eq {k : Keyword} (hk : k.hasTarget = true) {t rest : Text}
    (h : Text.afterKeyword? k.name t = some rest) (hend : ∀ c ∈ rest.head?, isBlank c = true) :
    targetOf? k t = targetAmong? (Text.words rest) := by
  rw [targetOf?, hk, h]
  cases rest with
  | nil => rfl
  | cons c rest =>
    show (if isBlank c then _ else none) = _
    rw [if_pos (hend c rfl)]

end Command

/-! ## Missing targets -/

namespace Check

theorem forall_mem_when_iff {P : Issue → Prop} {p : Prop} [Decidable p] {i : Issue} :
    (∀ j ∈ if p then [i] else [], P j) ↔ (p → P i) := by
  split <;> simp [*]

/-- A missing target is reported for commands that call a server. -/
theorem reports_missing_target_iff {fileType : Option FileType} {c : Command} :
    (∃ i ∈ command fileType c, i.code = "CMD002".toList) ↔
      c.keyword.isServerCall = true ∧ c.target = none := by
  constructor
  · rintro ⟨i, hi, hcode⟩
    revert i
    simp only [command, List.forall_mem_append]
    refine ⟨⟨⟨⟨⟨⟨⟨?_, ?_⟩, ?_⟩, ?_⟩, ?_⟩, ?_⟩, ?_⟩, ?_⟩
    · exact forall_mem_when_iff.2 fun _ h => absurd h (by dsimp only; decide)
    · exact forall_mem_when_iff.2 fun h _ => by simpa using h
    · exact forall_mem_when_iff.2 fun _ h => absurd h (by dsimp only; decide)
    · cases fileType with
      | none => exact nofun
      | some t => exact forall_mem_when_iff.2 fun _ h => absurd h (by dsimp only; decide)
    · exact forall_mem_when_iff.2 fun _ h => absurd h (by dsimp only; decide)
    · exact forall_mem_when_iff.2 fun _ h => absurd h (by dsimp only; decide)
    · exact forall_mem_when_iff.2 fun _ h => absurd h (by dsimp only; decide)
    · exact forall_mem_when_iff.2 fun _ h => absurd h (by dsimp only; decide)
  · rintro ⟨hcall, htarget⟩
    have hmissing : (c.keyword.isServerCall && c.target.isNone) = true := by simp [hcall, htarget]
    simp only [command, if_pos hmissing, List.append_assoc]
    exact ⟨_, List.mem_append_right _ (List.mem_append_left _ List.mem_cons_self), rfl⟩

end Check

namespace Command

/-- A flag is a word that is the name of one when case does not count. -/
theorem isFlag_iff {w : Text} :
    isFlag w = true ↔ w.map foldLetter = "CatchError".toList.map foldLetter ∨
      w.map foldLetter = "ExpectFail".toList.map foldLetter := by
  have hread (name : Text) : Text.afterKeyword? name w = some [] ↔
      w.map foldLetter = name.map foldLetter := by
    rw [Text.afterKeyword?_eq_some]
    exact ⟨fun ⟨word, hword, hname⟩ => by rw [hword, List.append_nil, hname],
      fun hname => ⟨w, (List.append_nil w).symm, hname⟩⟩
  rw [isFlag, Bool.or_eq_true, beq_iff_eq, beq_iff_eq, hread, hread]

/-- **The target of a command.** For a command with a target, and with blanks or nothing behind its
keyword, it is the first word behind the keyword that is no flag. Only if there are words, and all of
them are flags, the target is the last one instead of none, so that the missing target of a call of a
server is reported only if there is no word at all. -/
theorem target_of_words {k : Keyword} (hk : k.hasTarget = true) {t rest : Text}
    (h : Text.afterKeyword? k.name t = some rest) (hend : ∀ c ∈ rest.head?, isBlank c = true)
    (line : Nat) :
    ∃ c, ofLine? t line = some c ∧ c.keyword = k ∧
      c.target = ((Text.words rest).find? (!isFlag ·)).or (Text.words rest).getLast? ∧
        (c.target = (Text.words rest).find? (!isFlag ·) ↔
          Text.words rest = [] ∨ ∃ w ∈ Text.words rest, isFlag w = false) ∧
          (k.isServerCall = true → ∀ fileType,
            (∃ i ∈ Check.command fileType c, i.code = "CMD002".toList) ↔ Text.words rest = []) := by
  refine ⟨_, ofLine?_of_afterKeyword? h (fun c hc => isWord_eq_false_of_isBlank (hend c hc)) line,
    rfl, ?_, ?_, fun hcall fileType => ?_⟩
  · exact (targetOf?_eq hk h hend).trans (targetAmong?_eq _)
  · show targetOf? k t = _ ↔ _
    rw [targetOf?_eq hk h hend, targetAmong?_eq]
    cases hfound : (Text.words rest).find? (!isFlag ·) with
    | none =>
      have hflags : ¬ ∃ w ∈ Text.words rest, isFlag w = false := by simpa using hfound
      rw [Option.none_or, List.getLast?_eq_none_iff, or_iff_left hflags]
    | some w =>
      have hw := List.find?_some hfound
      rw [Option.some_or, eq_self_iff_true, true_iff]
      exact Or.inr ⟨w, List.mem_of_find?_eq_some hfound, by simpa using hw⟩
  · rw [Check.reports_missing_target_iff]
    show (k.isServerCall = true ∧ targetOf? k t = none) ↔ _
    rw [targetOf?_eq hk h hend, targetAmong?_eq, Option.or_eq_none_iff, List.getLast?_eq_none_iff]
    exact ⟨fun hnone => hnone.2.2, fun hnil => ⟨hcall, by rw [hnil]; rfl, hnil⟩⟩

/-- Words that merely begin like a flag are targets. -/
theorem target_of_words_longer_flag :
    ∃ c, ofLine? "get CATCHERROR ExpectFails" 4 = some c ∧ c.target = some "ExpectFails".toList := by
  have hread : Text.afterKeyword? Keyword.get.name "get CATCHERROR ExpectFails" =
    some " CATCHERROR ExpectFails" := rfl
  have hblank : ∀ c ∈ (" CATCHERROR ExpectFails" : Text).head?, isBlank c = true := fun _ hc =>
    Option.some.inj hc ▸ rfl
  obtain ⟨c, hc, -, htarget, -⟩ := target_of_words rfl hread hblank 4
  exact ⟨c, hc, htarget⟩

/-- A flag without a target behind it is taken for the target, and nothing is reported. -/
theorem target_of_lone_flag :
    isFlag "CatchError" = true ∧
      ∃ c, ofLine? "Get CatchError" 1 = some c ∧ c.target = some "CatchError".toList ∧
        ∀ fileType, ¬ ∃ i ∈ Check.command fileType c, i.code = "CMD002".toList := by
  have hread : Text.afterKeyword? Keyword.get.name "Get CatchError" = some " CatchError" := rfl
  have hend : ∀ c ∈ (" CatchError" : Text).head?, isWord c = false := fun _ hc =>
    Option.some.inj hc ▸ rfl
  refine ⟨rfl, _, ofLine?_of_afterKeyword? hread hend 1, rfl, fun fileType hreported => ?_⟩
  exact absurd (Check.reports_missing_target_iff.1 hreported).2 (by decide)

end Command

end ScriptAudit
