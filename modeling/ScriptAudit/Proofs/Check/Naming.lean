import Mathlib.Data.List.Forall2
import Mathlib.Data.List.Sort
import ScriptAudit.Proofs.Check.Codes

/-!
# What is said about definitions and usages

The check of names goes through the variables of a document three times, each time with a memory of
its own: the names that it has seen, the first line of the definitions of a name, the names that are
used. What it reports can be told from the variables as a whole, in whatever order they are and
however often a name is defined.

* `Naming.newNames`, `Naming.firsts_eq` — the first occurrences of names.
* `Naming.isDefinedBy_iff` — the first line of the definitions of a name is on a line or before it
  exactly if one of them is.
* `Naming.OrderedByLine` — variables in the order of their lines, of which there is one only
  (`Naming.OrderedByLine.unique`) and which sorting gives (`Naming.orderedByLine_mergeSort`).
* `Naming.Tells` — an issue with a code, on the line of a variable.
* `Naming.Accounts`, `Check.names_accounted` — all issues of names.
-/

namespace ScriptAudit

namespace Naming

variable {vs us ws : List Variable} {name : Text} {line : Nat}

/-! ## First occurrences -/

/-- The variables with no variable of the same name in front of them. -/
def newNames (vs : List Variable) : List Variable :=
  (vs.zipIdx.filter fun (v, i) => ∀ u ∈ vs.take i, u.name ≠ v.name).map Prod.fst

/-- Behind some variables, the names that have been seen are theirs. -/
theorem firsts_eq_of_seen (before vs : List Variable) {seen : List Text}
    (hseen : ∀ n, n ∈ seen ↔ ∃ u ∈ before, u.name = n) :
    firsts seen vs = ((vs.zipIdx before.length).filter fun (v, i) =>
      ∀ u ∈ (before ++ vs).take i, u.name ≠ v.name).map Prod.fst := by
  induction vs generalizing before seen with
  | nil => rfl
  | cons v vs ih =>
    have hnew : (∀ u ∈ (before ++ v :: vs).take before.length, u.name ≠ v.name) ↔ v.name ∉ seen := by
      simp [hseen]
    have hnext : ∀ seen', (∀ n, n ∈ seen' ↔ n = v.name ∨ n ∈ seen) →
        firsts seen' vs = ((vs.zipIdx (before.length + 1)).filter fun (w, i) =>
          ∀ u ∈ (before ++ v :: vs).take i, u.name ≠ w.name).map Prod.fst := by
      intro seen' hseen'
      have hboth : ∀ n, n ∈ seen' ↔ ∃ u ∈ before ++ [v], u.name = n := by
        intro n
        simp only [hseen', hseen, List.mem_append, List.mem_singleton, or_and_right, exists_or,
          exists_eq_left]
        rw [or_comm, eq_comm (a := n)]
      have := ih (before ++ [v]) hboth
      simpa using this
    unfold firsts
    by_cases hv : v.name ∈ seen
    · rw [if_pos (by simpa using hv), hnext seen (by simpa using hv), List.zipIdx_cons,
        List.filter_cons_of_neg (by simpa only [decide_eq_true_eq, hnew, not_not] using hv)]
    · rw [if_neg (by simpa using hv), hnext (v.name :: seen) (by simp), List.zipIdx_cons,
        List.filter_cons_of_pos (by simpa only [decide_eq_true_eq, hnew] using hv), List.map_cons]

/-- The first occurrences of names are the variables with no variable of the same name in front. -/
theorem firsts_eq (vs : List Variable) : firsts [] vs = newNames vs :=
  firsts_eq_of_seen [] vs (by simp)

/-! ## The first definition of a name -/

/-- What one more variable adds to the lines that are known to have a definition before them. -/
theorem any_noteDefinition_iff {first? : Option Nat} {v : Variable} :
    (noteDefinition name first? v).any (· ≤ line) = true ↔
      first?.any (· ≤ line) = true ∨ v.isDefinition = true ∧ v.name = name ∧ v.line ≤ line := by
  unfold noteDefinition
  split
  · next h =>
    obtain ⟨hdef, hname⟩ : v.isDefinition = true ∧ v.name = name := by simpa using h
    cases first? with
    | none => simp [hdef, hname]
    | some n => simp [hdef, hname, or_comm]
  · next h =>
    have hnot : ¬ (v.isDefinition = true ∧ v.name = name ∧ v.line ≤ line) := by
      intro ⟨hdef, hname, _⟩
      exact h (by simp [hdef, hname])
    simp [hnot]

theorem any_foldl_noteDefinition_iff (vs : List Variable) (first? : Option Nat) :
    (vs.foldl (noteDefinition name) first?).any (· ≤ line) = true ↔
      first?.any (· ≤ line) = true ∨
        ∃ v ∈ vs, v.isDefinition = true ∧ v.name = name ∧ v.line ≤ line := by
  induction vs generalizing first? with
  | nil => simp
  | cons v vs ih => rw [List.foldl_cons, ih, any_noteDefinition_iff, or_assoc, List.exists_mem_cons_iff]

/-- The first definition of a name is on a line or before it exactly if some definition is. -/
theorem isDefinedBy_iff : isDefinedBy name line vs = true ↔
    ∃ v ∈ vs, v.isDefinition = true ∧ v.name = name ∧ v.line ≤ line := by
  rw [isDefinedBy, firstDefinition?, any_foldl_noteDefinition_iff]
  simp

/-! ## The order of lines -/

/-- The same variables ordered by line, those of one line in the order in which they were. -/
structure OrderedByLine (vs us : List Variable) : Prop where
  sorted : us.Pairwise fun a b => a.line ≤ b.line
  stable : ∀ n, us.filter (·.line = n) = vs.filter (·.line = n)

theorem orderedByLine_mergeSort (vs : List Variable) :
    OrderedByLine vs (vs.mergeSort fun a b => a.line ≤ b.line) := by
  have htrans : ∀ a b c : Variable, decide (a.line ≤ b.line) = true →
      decide (b.line ≤ c.line) = true → decide (a.line ≤ c.line) = true := by
    simp only [decide_eq_true_eq]
    intro a b c hab hbc
    omega
  have htotal : ∀ a b : Variable, (decide (a.line ≤ b.line) || decide (b.line ≤ a.line)) = true := by
    simp only [Bool.or_eq_true, decide_eq_true_eq]
    intro a b
    omega
  constructor
  · exact (List.pairwise_mergeSort htrans htotal vs).imp (by simp)
  · intro n
    -- sorting keeps the variables of one line in order, since they are sorted already
    have hline : (vs.filter (·.line = n)).Pairwise fun a b => decide (a.line ≤ b.line) = true := by
      refine List.Pairwise.imp_of_mem ?_ (List.pairwise_of_forall (R := fun _ _ => True) (by simp))
      intro a b ha hb _
      simp_all
    have hsub := List.sublist_mergeSort htrans htotal hline List.filter_sublist
    have hself : (vs.filter (·.line = n)).filter (·.line = n) = vs.filter (·.line = n) := by simp
    refine (List.Sublist.eq_of_length (hself ▸ hsub.filter (·.line = n)) ?_).symm
    exact ((List.mergeSort_perm vs _).filter _).length_eq.symm

theorem OrderedByLine.filter (h : OrderedByLine vs us) (p : Variable → Bool) :
    OrderedByLine (vs.filter p) (us.filter p) where
  sorted := h.sorted.filter p
  stable := by
    intro n
    rw [List.filter_filter, List.filter_filter]
    simp only [Bool.and_comm]
    rw [← List.filter_filter, ← List.filter_filter, h.stable n]

/-- There is one such order. -/
theorem OrderedByLine.unique (h : OrderedByLine vs us) (h' : OrderedByLine vs ws) : us = ws := by
  have hsame : ∀ n, us.filter (·.line = n) = ws.filter (·.line = n) :=
    fun n => (h.stable n).trans (h'.stable n).symm
  have hsorted := h.sorted
  have hsorted' := h'.sorted
  clear h h'
  induction us generalizing ws with
  | nil =>
    refine (List.eq_nil_iff_forall_not_mem.2 fun w hw => ?_).symm
    have : w ∈ ws.filter (·.line = w.line) := by simp [hw]
    rw [← hsame] at this
    cases this
  | cons u us ih =>
    cases ws with
    | nil =>
      have : u ∈ (u :: us).filter (·.line = u.line) := by simp
      rw [hsame] at this
      cases this
    | cons w ws =>
      rw [List.pairwise_cons] at hsorted hsorted'
      -- the first variables are on the same line, and so they are the first ones of this line
      have hle : w.line ≤ u.line := by
        have hu : u ∈ (w :: ws).filter (·.line = u.line) := hsame u.line ▸ by simp
        rcases List.mem_cons.1 (List.mem_of_mem_filter hu) with rfl | hu
        · exact le_rfl
        · exact hsorted'.1 u hu
      have hge : u.line ≤ w.line := by
        have hw : w ∈ (u :: us).filter (·.line = w.line) := (hsame w.line).symm ▸ by simp
        rcases List.mem_cons.1 (List.mem_of_mem_filter hw) with rfl | hw
        · exact le_rfl
        · exact hsorted.1 w hw
      have hline : w.line = u.line := le_antisymm hle hge
      have hhead := hsame u.line
      rw [List.filter_cons_of_pos (by simp), List.filter_cons_of_pos (by simpa using hline)] at hhead
      obtain ⟨rfl, -⟩ := List.cons.inj hhead
      refine congrArg (u :: ·) (ih (fun n => ?_) hsorted.2 hsorted'.2)
      have := hsame n
      by_cases hn : u.line = n
      · rw [List.filter_cons_of_pos (by simpa using hn), List.filter_cons_of_pos (by simpa using hn)]
          at this
        exact (List.cons.inj this).2
      · rwa [List.filter_cons_of_neg (by simpa using hn), List.filter_cons_of_neg (by simpa using hn)]
          at this

/-! ## What there is to report -/

/-- Whether a name belongs to a built-in variable that is nowhere defined under this very name. -/
def IsProvided (vs : List Variable) (name : Text) : Prop :=
  isBuiltIn name = true ∧ ∀ u ∈ vs, u.isDefinition = true → u.name ≠ name

instance (vs : List Variable) (name : Text) : Decidable (IsProvided vs name) :=
  inferInstanceAs (Decidable (_ ∧ _))

/-- Whether a variable is a usage that should have a definition, and no definition of its name is on
its line or before it. -/
def IsEarly (vs : List Variable) (v : Variable) : Prop :=
  v.isDefinition = false ∧ isBuiltIn v.name = false ∧ v.name.head?.any isUpper = false ∧
    ∀ u ∈ vs, u.isDefinition = true → u.name = v.name → v.line < u.line

instance (vs : List Variable) (v : Variable) : Decidable (IsEarly vs v) :=
  inferInstanceAs (Decidable (_ ∧ _ ∧ _ ∧ _))

/-- Whether a variable is a definition of a name that occurs in no usage. -/
def IsUnused (vs : List Variable) (v : Variable) : Prop :=
  v.isDefinition = true ∧ ∀ u ∈ vs, u.isDefinition = false → u.name ≠ v.name

instance (vs : List Variable) (v : Variable) : Decidable (IsUnused vs v) :=
  inferInstanceAs (Decidable (_ ∧ _))

/-- Whether a name is wrong and does not belong to a built-in variable that is nowhere defined. -/
def IsMisspelled (vs : List Variable) (v : Variable) : Prop :=
  problem? v.name ≠ none ∧ ¬ IsProvided vs v.name

instance (vs : List Variable) (v : Variable) : Decidable (IsMisspelled vs v) :=
  inferInstanceAs (Decidable (_ ∧ _))

/-- An issue with this code and severity is on the line of a variable, it shows the line, and its
message begins with the name. -/
structure Tells (code : Text) (severity : Severity) (v : Variable) (i : Issue) : Prop where
  code_eq : i.code = code
  severity_eq : i.severity = severity
  line_eq : i.line = some v.line
  context_eq : i.context = some v.context
  name_prefix : ("Variable \"".toList ++ v.name ++ ['"']) <+: i.message

/-- A message about a variable goes on behind the closing quotation mark. -/
theorem name_prefix_message (name rest : Text) :
    ("Variable \"".toList ++ name ++ ['"']) <+: "Variable \"".toList ++ name ++ '"' :: rest :=
  ⟨rest, by rw [List.append_assoc, List.singleton_append]⟩

theorem tells_nameIssue (v : Variable) (problem : Text) :
    Tells "NAME001" .error v (nameIssue v problem) :=
  ⟨rfl, rfl, rfl, rfl,
    name_prefix_message v.name " does not follow camelCase naming convention".toList⟩

theorem tells_usageIssue (v : Variable) : Tells "NAME002" .warning v (usageIssue v) :=
  ⟨rfl, rfl, rfl, rfl, name_prefix_message v.name " is used before it is defined".toList⟩

theorem tells_definitionIssue (v : Variable) : Tells "NAME003" .info v (definitionIssue v) :=
  ⟨rfl, rfl, rfl, rfl, name_prefix_message v.name " is defined but never used".toList⟩

theorem map_line_of_tells {code : Text} {severity : Severity} {is : List Issue}
    (h : List.Forall₂ (Tells code severity) vs is) :
    is.map Issue.line = vs.map fun v => some v.line := by
  induction h with
  | nil => rfl
  | cons h _ ih => rw [List.map_cons, List.map_cons, h.line_eq, ih]

theorem withCode_of_tells {code : Text} {severity : Severity} {is : List Issue}
    (h : List.Forall₂ (Tells code severity) vs is) (c : Text) :
    Check.withCode c is = if code = c then is else [] := by
  have hcode : ∀ i ∈ is, i.code = code := by
    induction h with
    | nil => exact nofun
    | cons h _ ih => exact List.forall_mem_cons.2 ⟨h.code_eq, ih⟩
  exact Check.withCode_of_forall hcode c

/-- These are the issues that the names of some variables give rise to. -/
structure Accounts (vs : List Variable) (is : List Issue) : Prop where
  /-- A name that is wrong is reported where it occurs first, with what is wrong about it. -/
  names : List.Forall₂ (fun v i => Tells "NAME001" .error v i ∧ i.suggestion = problem? v.name)
    ((newNames vs).filter (IsMisspelled vs ·)) (Check.withCode "NAME001" is)
  /-- A usage that is too early is reported where it is, and so usages are by line. -/
  usages : ∃! early, OrderedByLine (vs.filter (IsEarly vs ·)) early ∧
    List.Forall₂ (Tells "NAME002" .warning) early (Check.withCode "NAME002" is)
  /-- A definition without a usage is reported where it is. -/
  definitions : List.Forall₂ (Tells "NAME003" .info) (vs.filter (IsUnused vs ·))
    (Check.withCode "NAME003" is)
  /-- Nothing else is reported. -/
  eq_append : is = Check.withCode "NAME001" is ++ Check.withCode "NAME002" is ++
    Check.withCode "NAME003" is

/-! ## What is reported -/

/-- What is made of the elements that something can be made of. -/
theorem forall₂_filterMap {α β : Type} {R : α → β → Prop} {f : α → Option β}
    (h : ∀ a b, f a = some b → R a b) (as : List α) :
    List.Forall₂ R (as.filter fun a => f a ≠ none) (as.filterMap f) := by
  induction as with
  | nil => exact .nil
  | cons a as ih =>
    cases hb : f a with
    | none => rwa [List.filter_cons_of_neg (by simp [hb]), List.filterMap_cons_none hb]
    | some b =>
      rw [List.filter_cons_of_pos (by simp [hb]), List.filterMap_cons_some hb]
      exact .cons (h a b hb) ih

theorem nameIssues_eq (vs : List Variable) :
    nameIssues vs = ((newNames vs).filter fun v => ¬ IsProvided vs v.name).filterMap
      fun v => (problem? v.name).map (nameIssue v) := by
  have hprovided : ∀ v : Variable, (!isBuiltIn v.name || isDefined v.name vs) =
      decide (¬ IsProvided vs v.name) := by
    intro v
    rw [Bool.eq_iff_iff, decide_eq_true_iff]
    simp only [isDefined, IsProvided, Bool.or_eq_true, Bool.not_eq_true', List.any_eq_true,
      Bool.and_eq_true, beq_iff_eq, not_and, not_forall, not_not, exists_prop]
    rw [← Bool.not_eq_true, imp_iff_not_or]
  simp only [nameIssues, verdicts, firsts_eq, hprovided, List.filterMap_map]
  rfl

theorem forall₂_nameIssues (vs : List Variable) :
    List.Forall₂ (fun v i => Tells "NAME001" .error v i ∧ i.suggestion = problem? v.name)
      ((newNames vs).filter (IsMisspelled vs ·)) (nameIssues vs) := by
  have hfilter : (newNames vs).filter (IsMisspelled vs ·) =
      ((newNames vs).filter fun v => ¬ IsProvided vs v.name).filter fun v =>
        (problem? v.name).map (nameIssue v) ≠ none := by
    rw [List.filter_filter]
    refine List.filter_congr fun v _ => ?_
    rw [Bool.eq_iff_iff, decide_eq_true_iff]
    simp [IsMisspelled]
  rw [hfilter, nameIssues_eq]
  refine forall₂_filterMap (fun v i hi => ?_) _
  obtain ⟨problem, hproblem, rfl⟩ := Option.map_eq_some_iff.1 hi
  exact ⟨tells_nameIssue v problem, hproblem.symm⟩

theorem usageIssues_eq (vs : List Variable) :
    ∃ early, OrderedByLine (vs.filter (IsEarly vs ·)) early ∧ usageIssues vs = early.map usageIssue := by
  have hearly : (vs.filter (!·.isDefinition)).filter
      (fun v => needsDefinition v.name && !isDefinedBy v.name v.line vs) =
        vs.filter (IsEarly vs ·) := by
    rw [List.filter_filter]
    refine List.filter_congr fun v _ => ?_
    have hline : isDefinedBy v.name v.line vs = false ↔
        ∀ u ∈ vs, u.isDefinition = true → u.name = v.name → v.line < u.line := by
      rw [← Bool.not_eq_true, isDefinedBy_iff]
      push Not
      rfl
    rw [Bool.eq_iff_iff, decide_eq_true_iff]
    simp only [IsEarly, needsDefinition, Bool.and_eq_true, Bool.not_eq_true', hline]
    tauto
  exact ⟨_, hearly ▸ (orderedByLine_mergeSort _).filter _, rfl⟩

theorem definitionIssues_eq (vs : List Variable) :
    definitionIssues vs = (vs.filter (IsUnused vs ·)).map definitionIssue := by
  have hunused : ∀ v : Variable, (v.isDefinition && !isUsed v.name vs) = decide (IsUnused vs v) := by
    intro v
    rw [Bool.eq_iff_iff, decide_eq_true_iff]
    simp [isUsed, IsUnused]
  simp only [definitionIssues, hunused]

end Naming

namespace Check

open Naming

/-- **What is reported about names.** For each name, at its first occurrence, what is wrong with it,
unless it belongs to a built-in variable that is not defined; the usages before any definition, by
line; the definitions without any usage; and nothing else. -/
theorem names_accounted (vs : List Variable) : Accounts vs (naming vs) := by
  obtain ⟨early, hordered, husages⟩ := usageIssues_eq vs
  have hnames := forall₂_nameIssues vs
  have hearly : List.Forall₂ (Tells "NAME002" .warning) early (usageIssues vs) := by
    rw [husages, List.forall₂_map_right_iff, List.forall₂_same]
    exact fun v _ => tells_usageIssue v
  have hunused : List.Forall₂ (Tells "NAME003" .info) (vs.filter (IsUnused vs ·))
      (definitionIssues vs) := by
    rw [definitionIssues_eq, List.forall₂_map_right_iff, List.forall₂_same]
    exact fun v _ => tells_definitionIssue v
  -- the issues of each pass have a code of their own
  have hcode (code : Text) : withCode code (naming vs) =
      (if "NAME001".toList = code then nameIssues vs else []) ++
      (if "NAME002".toList = code then usageIssues vs else []) ++
      (if "NAME003".toList = code then definitionIssues vs else []) := by
    rw [← withCode_of_tells (hnames.imp fun _ _ h => h.1), ← withCode_of_tells hearly,
      ← withCode_of_tells hunused]
    simp [withCode, naming]
  have hname : withCode "NAME001" (naming vs) = nameIssues vs := by rw [hcode]; simp
  have husage : withCode "NAME002" (naming vs) = usageIssues vs := by rw [hcode]; simp
  have hdefinition : withCode "NAME003" (naming vs) = definitionIssues vs := by rw [hcode]; simp
  constructor
  · rwa [hname]
  · rw [husage]
    exact ⟨early, ⟨hordered, hearly⟩, fun early' h => h.1.unique hordered⟩
  · rwa [hdefinition]
  · rw [hname, husage, hdefinition]
    rfl

/-- Variables of which one is used on two lines before it is defined, two are defined but not used,
one of them with the name of a built-in variable, and others are built-in or come from elsewhere. -/
def orders : List Variable :=
  [⟨"order", 5, false, "Get /a"⟩, ⟨"Order_Id", 2, true, "Eval 1 Into Order_Id"⟩,
    ⟨"order", 3, false, "Get /b"⟩, ⟨"order", 7, true, "Get /c Into order"⟩,
    ⟨"order", 7, false, "Get /c Into order"⟩, ⟨"Result", 4, false, "Print"⟩,
    ⟨"Total", 6, false, "Print"⟩, ⟨"Total", 1, false, "Print"⟩,
    ⟨"result", 8, true, "Eval 2 Into result"⟩]

/-- There are issues of each kind, those of usages by line. -/
theorem names_accounted_orders :
    (withCode "NAME001" (naming orders)).map Issue.line = [some 2, some 6, some 8] ∧
      (withCode "NAME002" (naming orders)).map Issue.line = [some 3, some 5] ∧
      (withCode "NAME003" (naming orders)).map Issue.line = [some 2, some 8] ∧
      (naming orders).map Issue.line =
        [some 2, some 6, some 8, some 3, some 5, some 2, some 8] := by
  obtain ⟨hnames, ⟨early, ⟨hordered, hearly⟩, -⟩, hdefinitions, happend⟩ := names_accounted orders
  have hsorted : OrderedByLine (orders.filter (IsEarly orders ·))
      [⟨"order", 3, false, "Get /b"⟩, ⟨"order", 5, false, "Get /a"⟩] := by
    have hfilter : orders.filter (IsEarly orders ·) =
        [⟨"order", 5, false, "Get /a"⟩, ⟨"order", 3, false, "Get /b"⟩] := by decide +kernel
    refine ⟨by decide, fun n => ?_⟩
    rw [hfilter]
    by_cases h₃ : 3 = n
    · subst h₃
      rfl
    · by_cases h₅ : 5 = n <;> simp [h₃, h₅]
  have hfirst : (withCode "NAME001" (naming orders)).map Issue.line =
      [some 2, some 6, some 8] := by
    rw [map_line_of_tells (hnames.imp fun _ _ h => h.1)]
    decide +kernel
  have hsecond : (withCode "NAME002" (naming orders)).map Issue.line = [some 3, some 5] := by
    rw [map_line_of_tells hearly, hordered.unique hsorted]
    rfl
  have hthird : (withCode "NAME003" (naming orders)).map Issue.line = [some 2, some 8] := by
    rw [map_line_of_tells hdefinitions]
    decide +kernel
  refine ⟨hfirst, hsecond, hthird, ?_⟩
  rw [happend, List.map_append, List.map_append, hfirst, hsecond, hthird]
  rfl

end Check

end ScriptAudit
