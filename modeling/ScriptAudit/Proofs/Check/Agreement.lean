import Mathlib.Data.List.Forall2
import ScriptAudit.Proofs.Check.Codes
import ScriptAudit.Proofs.Document.Commands
import ScriptAudit.Proofs.Redaction.Secrets
import ScriptAudit.Yaml.Standard

/-!
# The reviews of a document agree

A text is reviewed as a whole, for errors only, for its phases and for its commands. What each of
the four objects shows can be told from the first one: `Review.Agreement` says how, in terms of the
codes and severities that are written in the objects.

* `Json.issues`, `Json.family`, `Json.tellsError` — what an object shows of issues.
* `Issue.family_maskAll_json`, `Issue.tellsError_maskAll_json` — masking hides neither which check
  an issue comes from nor how grave it is.
* `CommandReview.hasIssue_iff` — a command is flagged for issues of its own, since no two commands
  are on one line.
* `Review.agreement` — the main result.
-/

namespace ScriptAudit

open Redaction (mask maskAll maskFields maskItems maskItems_eq_map)

/-! ## What an object shows -/

namespace Json

/-- The value of a field of an object. -/
def lookup? (key : String) : Json → Option Json
  | .obj fs => get? key fs
  | _ => none

/-- The items of an array. -/
def items : Json → List Json
  | .arr vs => vs
  | _ => []

/-- The items of an array in a field of an object. -/
def list (key : String) (v : Json) : List Json := ((v.lookup? key).map items).getD []

/-- The issues in an object. -/
def issues (v : Json) : List Json := v.list "issues"

/-- The letters of the code that an issue shows. -/
def family (issue : Json) : Text :=
  match issue.lookup? "code" with
  | some (.str code) => Issue.family code
  | _ => []

/-- Whether an issue shows that it is an error. -/
def tellsError (issue : Json) : Bool :=
  match issue.lookup? "severity" with
  | some (.str severity) => severity == Severity.error.name
  | _ => false

theorem lookup?_maskAll (key : String) (fs : List (Text × Json)) :
    lookup? key (maskAll (.obj fs)) = (get? key fs).map maskAll :=
  Redaction.get?_maskFields key fs

theorem list_maskAll {key : String} {fs : List (Text × Json)} {vs : List Json}
    (h : get? key fs = some (.arr vs)) : list key (maskAll (.obj fs)) = vs.map maskAll := by
  rw [list, lookup?_maskAll, h]
  exact maskItems_eq_map vs

end Json

/-! ## Issues -/

namespace Issue

variable {i : Issue} {letters : Text}

/-- A code holds nothing that is masked. -/
theorem Coded.mask_code (h : i.Coded letters) (hletters : ∀ c ∈ letters, c.isAlpha = true) :
    mask i.code = i.code := by
  refine Redaction.mask_eq_self (fun hc => ?_) fun hc => ?_
  · exact absurd (h.isAlphanum_of_mem hletters _ hc) (by decide)
  · exact absurd (h.isAlphanum_of_mem hletters _ hc) (by decide)

theorem family_maskAll_json (h : i.Coded letters) (hletters : ∀ c ∈ letters, c.isAlpha = true) :
    (maskAll i.json).family = letters := by
  have hcode : (maskAll i.json).lookup? "code" = some (.str (mask i.code)) :=
    Json.lookup?_maskAll "code" _
  rw [Json.family, hcode, h.mask_code hletters]
  exact h.family_eq hletters

theorem tellsError_maskAll_json (i : Issue) : (maskAll i.json).tellsError = i.isError := by
  have hseverity : (maskAll i.json).lookup? "severity" = some (.str (mask i.severity.name)) :=
    Json.lookup?_maskAll "severity" _
  have hmask : mask i.severity.name = i.severity.name :=
    Redaction.mask_eq_self (by cases i.severity <;> decide) (by cases i.severity <;> decide)
  rw [Json.tellsError, hseverity, hmask, isError]
  cases i.severity <;> rfl

/-- An issue as an object, with its secrets masked. -/
def shown (i : Issue) : Json := maskAll i.json

end Issue

namespace Json

/-- The issues in an object that come from the checks with the given letters. -/
def issuesOf (families : List Text) (v : Json) : List Json :=
  v.issues.filter fun i => families.elem i.family

/-- The issues in an object that are errors. -/
def errors (v : Json) : List Json := v.issues.filter tellsError

theorem issues_of_fields {fs : List (Text × Json)} {is : List Issue}
    (h : get? "issues" fs = some (.arr (is.map Issue.json))) :
    (maskAll (.obj fs)).issues = is.map Issue.shown := by
  rw [issues, list_maskAll h, List.map_map]
  rfl

/-- Of the issues of one check all or none come from the checks that are asked for. -/
theorem filter_family {is : List Issue} {letters : Text} (his : ∀ i ∈ is, i.Coded letters)
    (hletters : ∀ c ∈ letters, c.isAlpha = true) (families : List Text) :
    ((is.map Issue.shown).filter fun i => i.family ∈ families) =
      if letters ∈ families then is.map Issue.shown else [] := by
  have hfamily (v : Json) (hv : v ∈ is.map Issue.shown) : v.family = letters := by
    obtain ⟨i, hi, rfl⟩ := List.mem_map.1 hv
    exact Issue.family_maskAll_json (his i hi) hletters
  split
  · next hmem => exact List.filter_eq_self.2 fun v hv => by simpa [hfamily v hv] using hmem
  · next hmem => exact List.filter_eq_nil_iff.2 fun v hv => by simpa [hfamily v hv] using hmem

theorem filter_tellsError (is : List Issue) :
    (is.map Issue.shown).filter tellsError = (is.filter Issue.isError).map Issue.shown := by
  rw [List.filter_map]
  congr 2
  funext i
  exact i.tellsError_maskAll_json

end Json

/-! ## Checks -/

namespace Check

/-- The issues of all checks come check by check. Of those that are shown, each check gives all or
none to the checks that are asked for. -/
theorem exists_eq_of_all {d : Document} {is : List Issue} (h : all d = .ok is) :
    ∃ ms, is = ms ++ phases d ++ naming d.usages ++ patterns d ++ commands d ∧
      ∀ families : List Text, ((is.map Issue.shown).filter fun i => i.family ∈ families) =
        (if "META".toList ∈ families then ms.map Issue.shown else []) ++
        (if "AAA".toList ∈ families then (phases d).map Issue.shown else []) ++
        (if "NAME".toList ∈ families then (naming d.usages).map Issue.shown else []) ++
        (if "PAT".toList ∈ families then (patterns d).map Issue.shown else []) ++
        ((if "CMD".toList ∈ families then
            (d.commands.flatMap (command d.fileType)).map Issue.shown else []) ++
          if "FILE".toList ∈ families then
            (fileTypeRules d.fileType d.commands).map Issue.shown else []) := by
  obtain ⟨ms, hms, h⟩ := bind_eq_ok_iff.1 h
  refine ⟨ms, (Except.ok.inj h).symm, fun families => ?_⟩
  have hcommand : ∀ i ∈ d.commands.flatMap (command d.fileType), i.Coded "CMD" :=
    List.forall_mem_flatMap.2 fun c _ i hi => (coded_command d.fileType c i hi).1
  have hrules : ∀ i ∈ fileTypeRules d.fileType d.commands, i.Coded "FILE" :=
    fun i hi => (coded_fileTypeRules d.fileType d.commands i hi).1
  rw [← Except.ok.inj h, commands]
  simp only [List.map_append, List.filter_append]
  rw [Json.filter_family (coded_of_metadata hms) (Text.forall_mem_of_all (by decide)),
    Json.filter_family (coded_phases d) (Text.forall_mem_of_all (by decide)),
    Json.filter_family (coded_naming d.usages) (Text.forall_mem_of_all (by decide)),
    Json.filter_family (coded_patterns d) (Text.forall_mem_of_all (by decide)),
    Json.filter_family hcommand (Text.forall_mem_of_all (by decide)),
    Json.filter_family hrules (Text.forall_mem_of_all (by decide))]

end Check

/-! ## Commands with issues -/

/-- No two commands of a document are on one line. -/
theorem Document.pairwise_line_commands [Yaml.Loader] {t : Text} {d : Document}
    (h : read t = .ok d) :
    d.commands.Pairwise fun c c' => c.line < c'.line := by
  obtain ⟨m, start, hhead, rfl⟩ := read_eq_ok h
  exact (Script.commandCover_scriptBlocks (fun l => Text.lineFeed_notMem_of_mem_lines)
    (head_le_length_lines hhead)).increasing

/-- A command is flagged for its own issues: those of other commands are on other lines, and those
of the commands as a whole are on none. -/
theorem CommandReview.hasIssue_iff {d : Document}
    (hlines : d.commands.Pairwise fun c c' => c.line < c'.line) {c : Command}
    (hc : c ∈ d.commands) :
    hasIssue ⟨d.commands, Check.commands d⟩ c = true ↔ Check.command d.fileType c ≠ [] := by
  simp only [hasIssue, List.any_eq_true, beq_iff_eq]
  constructor
  · rintro ⟨i, hi, hline⟩
    rcases List.mem_append.1 hi with hi | hi
    · obtain ⟨c', hc', hi⟩ := List.mem_flatMap.1 hi
      have hline' := (Check.coded_command d.fileType c' i hi).2
      obtain rfl : c' = c :=
        Script.eq_of_line_eq hlines hc' hc (Option.some.inj (hline'.symm.trans hline))
      exact List.ne_nil_of_mem hi
    · rw [(Check.coded_fileTypeRules d.fileType d.commands i hi).2] at hline
      cases hline
  · intro hne
    obtain ⟨i, hi⟩ := List.exists_mem_of_ne_nil _ hne
    exact ⟨i, List.mem_append_left _ (List.mem_flatMap.2 ⟨c, hc, hi⟩),
      (Check.coded_command d.fileType c i hi).2⟩

/-- The entry of a command, with its secrets masked. -/
theorem CommandReview.list_commands_json (r : CommandReview) :
    r.json.list "commands" = r.commands.map fun c =>
      maskAll (.obj ([("type".toList, .str c.keyword.name), ("line".toList, Json.nat c.line),
        ("has_issues".toList, .bool (r.hasIssue c))] ++
          Json.field? "target" (c.target.map .str))) := by
  rw [json, plainJson, Json.object, Json.list_maskAll rfl, List.map_map]
  rfl

/-! ## Reviews -/

namespace Review

/-- How the objects of the reviews of one document belong together: the full one, the brief one with
errors only, those of the phases and of the commands. -/
structure Agreement (full brief phases commands : Json) : Prop where
  /-- All issues come check by check. -/
  ordered : full.issues = full.issuesOf ["META".toList] ++ full.issuesOf ["AAA".toList] ++
    full.issuesOf ["NAME".toList] ++ full.issuesOf ["PAT".toList] ++
    full.issuesOf ["CMD".toList, "FILE".toList]
  /-- The review of the phases has the issues of its check. -/
  issues_phases : phases.issues = full.issuesOf ["AAA".toList]
  /-- The review of the commands has the issues of its check. -/
  issues_commands : commands.issues = full.issuesOf ["CMD".toList, "FILE".toList]
  /-- The brief review has the errors. -/
  issues_brief : brief.issues = full.errors
  /-- Either review is valid when there are no errors. -/
  valid : ∀ v ∈ [full, brief], v.lookup? "valid" = some (.bool full.errors.isEmpty)
  /-- Either review counts the errors. -/
  errorCount : ∀ v ∈ [full, brief],
    (v.lookup? "summary").bind (Json.lookup? "errors") = some (Json.nat full.errors.length)
  /-- Either review counts the same parts of the document. -/
  counts : ∃ counts, ∀ v ∈ [full, brief], v.lookup? "metadata" = some counts

variable {t : Text} {filename : Option Text} {r : Review}

theorem issues_json : (r.json filename).issues = r.issues.map Issue.shown :=
  Json.issues_of_fields rfl

theorem errors_json : (r.json filename).errors = (r.issues.filter Issue.isError).map Issue.shown := by
  rw [Json.errors, issues_json, Json.filter_tellsError]

theorem lookup?_valid_json :
    (r.json filename).lookup? "valid" = some (.bool (r.json filename).errors.isEmpty) := by
  have hvalid : (r.json filename).lookup? "valid" = some (.bool r.isValid) := rfl
  have hempty : r.isValid = (r.issues.filter Issue.isError).isEmpty := by
    rw [isValid, Bool.eq_iff_iff]
    simp [List.filter_eq_nil_iff]
  rw [hvalid, errors_json, List.isEmpty_map, hempty]

theorem lookup?_errors_json : ((r.json filename).lookup? "summary").bind (Json.lookup? "errors") =
    some (Json.nat (r.json filename).errors.length) := by
  have hcount : ((r.json filename).lookup? "summary").bind (Json.lookup? "errors") =
      some (Json.nat (count .error r.issues)) := rfl
  rw [hcount, errors_json, List.length_map, count, List.countP_eq_length_filter]
  rfl

theorem agreement_of_all {d : Document} {is : List Issue} (h : Check.all d = .ok is) :
    Agreement (json filename ⟨d, is⟩) (json filename ⟨d, is.filter Issue.isError⟩)
      (PhaseReview.json ⟨d, Check.phases d⟩) (CommandReview.json ⟨d.commands, Check.commands d⟩) := by
  obtain ⟨ms, his, hfilter⟩ := Check.exists_eq_of_all h
  have hof (families : List Text) : (json filename ⟨d, is⟩).issuesOf families =
      (is.map Issue.shown).filter fun i => i.family ∈ families := by
    simp only [Json.issuesOf, issues_json, List.elem_eq_mem]
  have hcommands : (Check.commands d).map Issue.shown =
      (d.commands.flatMap (Check.command d.fileType)).map Issue.shown ++
        (Check.fileTypeRules d.fileType d.commands).map Issue.shown := by
    rw [Check.commands, List.map_append]
  have hphases : (PhaseReview.json ⟨d, Check.phases d⟩).issues =
      (Check.phases d).map Issue.shown := Json.issues_of_fields rfl
  have hreview : (CommandReview.json ⟨d.commands, Check.commands d⟩).issues =
      (Check.commands d).map Issue.shown := Json.issues_of_fields rfl
  have herrors : (json filename ⟨d, is.filter Issue.isError⟩).errors =
      (json filename ⟨d, is⟩).errors := by
    rw [errors_json, errors_json, List.filter_filter]
    simp
  refine ⟨?_, ?_, ?_, ?_, ?_, ?_, ?_⟩
  · rw [issues_json, hof, hof, hof, hof, hof, hfilter, hfilter, hfilter, hfilter, hfilter, his]
    simp [hcommands]
  · rw [hphases, hof, hfilter]
    simp
  · rw [hreview, hcommands, hof, hfilter]
    simp
  · rw [issues_json, errors_json]
  · refine List.forall_mem_cons.2 ⟨lookup?_valid_json, List.forall_mem_singleton.2 ?_⟩
    rw [lookup?_valid_json, herrors]
  · refine List.forall_mem_cons.2 ⟨lookup?_errors_json, List.forall_mem_singleton.2 ?_⟩
    rw [lookup?_errors_json, herrors]
  · exact ⟨_, List.forall_mem_cons.2 ⟨rfl, List.forall_mem_singleton.2 rfl⟩⟩

/-- **Reviews agree.** Where a text has a full review it has all others, and they agree with it. In
every review of commands those are flagged that have issues of their own. -/
theorem agreement [Yaml.Loader] (t : Text) :
    (∀ filename full, ofText true t = .ok full → ∃ brief phases commands,
      ofText false t = .ok brief ∧ PhaseReview.ofText t = .ok phases ∧
        CommandReview.ofText t = .ok commands ∧
        Agreement (full.json filename) (brief.json filename) phases.json commands.json) ∧
    ∀ d commands, Document.read t = .ok d → CommandReview.ofText t = .ok commands →
      List.Forall₂ (fun entry c => entry.lookup? "line" = some (Json.nat c.line) ∧
        entry.lookup? "has_issues" = some (.bool (!(Check.command d.fileType c).isEmpty)))
          (commands.json.list "commands") d.commands := by
  constructor
  · intro filename full h
    obtain ⟨d, hd, h⟩ := bind_eq_ok_iff.1 h
    obtain ⟨is, his, h⟩ := bind_eq_ok_iff.1 h
    obtain rfl := Except.ok.inj h
    refine ⟨⟨d, is.filter Issue.isError⟩, ⟨d, Check.phases d⟩, ⟨d.commands, Check.commands d⟩,
      ?_, ?_, ?_, agreement_of_all his⟩
    · exact bind_eq_ok_iff.2 ⟨d, hd, bind_eq_ok_iff.2 ⟨is, his, rfl⟩⟩
    · exact bind_eq_ok_iff.2 ⟨d, hd, rfl⟩
    · exact bind_eq_ok_iff.2 ⟨d, hd, rfl⟩
  · intro d commands hd h
    obtain ⟨d', hd', h⟩ := bind_eq_ok_iff.1 h
    obtain rfl := Except.ok.inj (hd.symm.trans hd')
    obtain rfl := Except.ok.inj h
    rw [CommandReview.list_commands_json, List.forall₂_map_left_iff, List.forall₂_same]
    intro c hc
    have hflag : CommandReview.hasIssue ⟨d.commands, Check.commands d⟩ c =
        !(Check.command d.fileType c).isEmpty := by
      rw [Bool.eq_iff_iff, CommandReview.hasIssue_iff (Document.pairwise_line_commands hd) hc]
      simp
    exact ⟨rfl, congrArg (some ∘ Json.bool) hflag⟩

/-- A test case with two commands, the first of which lacks its variable. -/
def evalScript : Text :=
  "---\ntype: Test Case\nowner: me\nmode: Standalone\n---\n## Act\n```\nEval 1\nPrint {$Url}\n```\n"

/-- Issues of four checks are found, and the first command is flagged but not the second. -/
theorem agreement_evalScript :
    (∃ full brief phases commands, ofText true evalScript = .ok full ∧
      ofText false evalScript = .ok brief ∧ PhaseReview.ofText evalScript = .ok phases ∧
      CommandReview.ofText evalScript = .ok commands ∧
      Agreement (full.json none) (brief.json none) phases.json commands.json ∧
      (full.json none).issues.map Json.family = ["AAA", "AAA", "AAA", "NAME", "CMD", "FILE"] ∧
      (full.json none).errors.map Json.family = ["AAA", "NAME", "CMD"]) ∧
    ∃ d commands, Document.read evalScript = .ok d ∧ CommandReview.ofText evalScript = .ok commands ∧
      d.commands.map (fun c => (Check.command d.fileType c).isEmpty) = [false, true] ∧
      List.Forall₂ (fun entry c => entry.lookup? "line" = some (Json.nat c.line) ∧
        entry.lookup? "has_issues" = some (.bool (!(Check.command d.fileType c).isEmpty)))
          (commands.json.list "commands") d.commands := by
  obtain ⟨hagree, hflags⟩ := agreement evalScript
  obtain ⟨full, hfull, hfamilies⟩ := Redaction.exists_eq_ok (e := ofText true evalScript)
    (p := fun r => (r.json none).issues.map Json.family =
        ["AAA", "AAA", "AAA", "NAME", "CMD", "FILE"] ∧
      (r.json none).errors.map Json.family = ["AAA", "NAME", "CMD"]) (by decide +kernel)
  obtain ⟨d, hd, hempty⟩ := Redaction.exists_eq_ok (e := Document.read evalScript)
    (p := fun d => d.commands.map (fun c => (Check.command d.fileType c).isEmpty) =
      [false, true]) (by decide +kernel)
  obtain ⟨brief, phases, commands, hbrief, hphases, hcommands, h⟩ := hagree none full hfull
  exact ⟨⟨full, brief, phases, commands, hfull, hbrief, hphases, hcommands, h,
      of_decide_eq_true hfamilies⟩,
    d, commands, hd, hcommands, of_decide_eq_true hempty, hflags d commands hd hcommands⟩

end Review

end ScriptAudit
