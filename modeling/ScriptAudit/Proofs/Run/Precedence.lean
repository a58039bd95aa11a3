import ScriptAudit.Proofs.Run.Configuration
import ScriptAudit.Proofs.Run.Opening

/-!
# Which setting counts

A key may be set in the environment and, any number of times, in each of several files. Of the files
only one counts: the first candidate that is there and can be read.

* `Configuration.Source` — the text of that file, and `Configuration.firstText_eq_ok_iff`: the
  search for assignments gives this text.
* `Configuration.LastAssigned` — the value of a name in its last assignment.
* `Configuration.get?_foldl_assign` — what is left of assignments, one after the other.
* `Configuration.TimeLimit` — how long a test may take, by the two keys that say so.
* `Configuration.load_iff_not_tooLong` — what is configured, and when it can be told.
-/

namespace ScriptAudit.Configuration

/-! ## Assignments one after the other -/

section

variable {name value : Text} {l : Text} {ls : List Text}

/-- None of the lines assigns anything to the name. -/
def Unassigned (name : Text) (ls : List Text) : Prop :=
  ∀ l ∈ ls, ∀ v, assignment? l ≠ some (name, v)

/-- The last one of the lines to assign anything to the name assigns the value. -/
def LastAssigned (name value : Text) (ls : List Text) : Prop :=
  ∃ above line below, ls = above ++ line :: below ∧ assignment? line = some (name, value) ∧
    Unassigned name below

theorem unassigned_cons :
    Unassigned name (l :: ls) ↔ (∀ v, assignment? l ≠ some (name, v)) ∧ Unassigned name ls :=
  List.forall_mem_cons

theorem lastAssigned_cons : LastAssigned name value (l :: ls) ↔
    assignment? l = some (name, value) ∧ Unassigned name ls ∨ LastAssigned name value ls := by
  constructor
  · rintro ⟨above, line, below, heq, hline, hbelow⟩
    cases above with
    | nil =>
      obtain ⟨rfl, rfl⟩ := List.cons.inj heq
      exact Or.inl ⟨hline, hbelow⟩
    | cons _ above =>
      obtain ⟨-, rfl⟩ := List.cons.inj heq
      exact Or.inr ⟨above, line, below, rfl, hline, hbelow⟩
  · rintro (⟨hl, hls⟩ | ⟨above, line, below, rfl, hline, hbelow⟩)
    · exact ⟨[], l, ls, rfl, hl, hls⟩
    · exact ⟨l :: above, line, below, rfl, hline, hbelow⟩

/-- The bindings with what a line assigns. -/
def assign (bs : Bindings) (line : Text) : Bindings :=
  match assignment? line with
  | some (name, value) => bs.put name value
  | none => bs

theorem assignments_eq (t : Text) : assignments t = (Text.lines t).foldl assign [] := rfl

/-- After one line a name has the value that the line assigns, or else the one it had. -/
theorem get?_assign (bs : Bindings) : (assign bs l).get? name = some value ↔
    assignment? l = some (name, value) ∨
      (∀ v, assignment? l ≠ some (name, v)) ∧ bs.get? name = some value := by
  unfold assign
  cases h : assignment? l with
  | none => simp
  | some a =>
    obtain ⟨name', value'⟩ := a
    dsimp only
    rw [Bindings.get?_put]
    by_cases hname : name = name'
    · subst hname
      simp
    · have hne : ∀ v, some (name', value') ≠ some (name, v) := by
        rintro v ⟨⟩
        exact hname rfl
      simp [hname, hne]

/-- **What is left of assignments**: the last one to a name, or else what there was before. -/
theorem get?_foldl_assign (bs : Bindings) : (ls.foldl assign bs).get? name = some value ↔
    LastAssigned name value ls ∨ Unassigned name ls ∧ bs.get? name = some value := by
  induction ls generalizing bs with
  | nil =>
    constructor
    · intro h
      exact Or.inr ⟨by rintro l ⟨⟩, h⟩
    · rintro (⟨above, line, below, heq, -⟩ | ⟨-, h⟩)
      · simp at heq
      · exact h
  | cons l ls ih =>
    rw [List.foldl_cons, ih, get?_assign, lastAssigned_cons, unassigned_cons]
    tauto

theorem get?_assignments (t : Text) :
    (assignments t).get? name = some value ↔ LastAssigned name value (Text.lines t) := by
  rw [assignments_eq, get?_foldl_assign, or_iff_left]
  rintro ⟨-, ⟨⟩⟩

end

/-! ## The file that counts -/

section

variable {files : Files} {p : Path} {ps : List Path} {t : Text}

theorem Reached.mem (h : Reached files ps p) : p ∈ ps := by
  induction h with
  | head => exact List.mem_cons_self
  | later _ _ ih => exact List.mem_cons_of_mem _ ih

/-- The text of the first candidate that is there and can be read. -/
def Source (files : Files) (ps : List Path) (t : Text) : Prop :=
  ∃ front p back, ps = front ++ p :: back ∧ (∀ q ∈ front, Passed files q) ∧
    files.has p = .ok true ∧ files.readText p = .ok t

theorem not_passed_of_readText (hhas : files.has p = .ok true) (hread : files.readText p = .ok t) :
    ¬ Passed files p := by
  rintro (h | ⟨-, h⟩)
  · cases hhas.symm.trans h
  · rw [Files.readText, h] at hread
    cases hread

theorem source_cons_of_passed (hp : Passed files p) :
    Source files (p :: ps) t ↔ Source files ps t := by
  constructor
  · rintro ⟨front, q, back, heq, hfront, hhas, hread⟩
    cases front with
    | nil =>
      obtain ⟨rfl, -⟩ := List.cons.inj heq
      exact absurd hp (not_passed_of_readText hhas hread)
    | cons _ front =>
      obtain ⟨-, rfl⟩ := List.cons.inj heq
      exact ⟨front, q, back, rfl, fun q hq => hfront q (List.mem_cons_of_mem _ hq), hhas, hread⟩
  · rintro ⟨front, q, back, rfl, hfront, hhas, hread⟩
    exact ⟨p :: front, q, back, rfl, List.forall_mem_cons.2 ⟨hp, hfront⟩, hhas, hread⟩

theorem source_cons_of_not_passed (hp : ¬ Passed files p) :
    Source files (p :: ps) t ↔ files.has p = .ok true ∧ files.readText p = .ok t := by
  constructor
  · rintro ⟨front, q, back, heq, hfront, hhas, hread⟩
    cases front with
    | nil =>
      obtain ⟨rfl, -⟩ := List.cons.inj heq
      exact ⟨hhas, hread⟩
    | cons q front =>
      obtain ⟨rfl, -⟩ := List.cons.inj heq
      exact absurd (hfront p List.mem_cons_self) hp
  · rintro ⟨hhas, hread⟩
    exact ⟨[], p, ps, rfl, by rintro q ⟨⟩, hhas, hread⟩

/-- A candidate that is not passed over decides alone. -/
theorem firstText_eq_ok_of_not_passed (hp : ¬ Passed files p) :
    firstText files (p :: ps) = .ok (some t) ↔
      files.has p = .ok true ∧ files.readText p = .ok t := by
  constructor
  · intro h
    rw [firstText] at h
    cases hhas : files.has p with
    | error x =>
      rw [hhas] at h
      cases h
    | ok there =>
      cases there with
      | false => exact absurd (.absent hhas) hp
      | true =>
        have hopen : Mild (files.read p) := Files.mild_read (Files.hasNull_of_has hhas)
        cases hread : files.read p with
        | error x =>
          obtain ⟨fault, path, rfl⟩ := hopen x hread
          exact absurd (.closed hhas hread) hp
        | ok bytes =>
          rw [hhas, Files.readText_of_read hread] at h
          rw [Files.readText_of_read hread]
          cases hdecode : Utf8.decode bytes with
          | ok s =>
            rw [hdecode] at h
            obtain rfl := Option.some.inj (Except.ok.inj h)
            exact ⟨rfl, rfl⟩
          | error defect =>
            rw [hdecode] at h
            cases h
  · rintro ⟨hhas, hread⟩
    rw [firstText]
    refine bind_eq_ok_iff.2 ⟨true, hhas, ?_⟩
    rw [if_pos rfl, hread]
    rfl

/-- **The search for assignments** gives the text of the file that counts. -/
theorem firstText_eq_ok_iff : firstText files ps = .ok (some t) ↔ Source files ps t := by
  induction ps with
  | nil =>
    constructor
    · rintro ⟨⟩
    · rintro ⟨front, p, back, heq, -⟩
      simp at heq
  | cons p ps ih =>
    by_cases hp : Passed files p
    · rw [firstText_of_passed hp, ih, source_cons_of_passed hp]
    · rw [firstText_eq_ok_of_not_passed hp, source_cons_of_not_passed hp]

/-- The system refuses to look for a candidate, since its name is too long. -/
def TooLong (files : Files) (p : Path) : Prop := files.has p = .error (.file .tooLong p.text)

theorem answers_has_iff : Answers (files.has p) ↔ ¬ TooLong files p := by
  rw [answers_iff_forall]
  constructor
  · intro h htooLong
    exact h _ htooLong
  · intro h f hf
    exact h (by rw [TooLong, hf, Files.eq_of_has_eq_error hf])

end

/-! ## How long a test may take -/

/-- A key is configured with a text that stands for a number. -/
def Numeric (bs : Bindings) (k : Key) (x : Float) : Prop :=
  ∃ t, bs.get? k.name = some t ∧ t ≠ [] ∧ Numeral.float? t = some x

/-- How many seconds a test may take: as many as are configured, else a thousandth of the
milliseconds that are, else 600. -/
inductive TimeLimit (bs : Bindings) : Float → Prop
  | seconds {x : Float} (h : Numeric bs .seconds x) : TimeLimit bs x
  | milliseconds {x : Float} (hno : ∀ y, ¬ Numeric bs .seconds y)
      (h : Numeric bs .milliseconds x) : TimeLimit bs (x / 1000)
  | otherwise (hno : ∀ y, ¬ Numeric bs .seconds y) (hno' : ∀ y, ¬ Numeric bs .milliseconds y) :
      TimeLimit bs (Float.ofNat 600)

theorem numeric_iff {bs : Bindings} {k : Key} {x : Float} :
    (bs.given? k.name).bind Numeral.float? = some x ↔ Numeric bs k x := by
  rw [Option.bind_eq_some_iff]
  refine exists_congr fun t => ?_
  rw [Bindings.given?, Option.filter_eq_some_iff, and_assoc]
  simp

theorem timeLimit_timeout (bs : Bindings) : TimeLimit bs (timeout bs) := by
  have hnot {k : Key} (h : (bs.given? k.name).bind Numeral.float? = none) (y : Float) :
      ¬ Numeric bs k y := by
    rw [← numeric_iff, h]
    rintro ⟨⟩
  unfold timeout
  cases hseconds : (bs.given? Key.seconds.name).bind Numeral.float? with
  | some x => exact .seconds (numeric_iff.1 hseconds)
  | none =>
    cases hmilliseconds : (bs.given? Key.milliseconds.name).bind Numeral.float? with
    | some x => exact .milliseconds (hnot hseconds) (numeric_iff.1 hmilliseconds)
    | none => exact .otherwise (hnot hseconds) (hnot hmilliseconds)

/-! ## What is configured -/

section

variable {files : Files} {environment : Bindings} {project : Text} {bs : Bindings}

/-- What the environment and the candidates say is configured. -/
structure Precedence (files : Files) (environment : Bindings) (project : Text) (bs : Bindings) :
    Prop where
  /-- The value of a key is the one in the environment. Where there is none, not even an empty one,
  it is the one in the file that counts. -/
  get?_key : ∀ (k : Key) value, bs.get? k.name = some value ↔
    environment.get? k.name = some value ∨ environment.get? k.name = none ∧
      ∃ t, Source files (candidates environment project) t ∧
        LastAssigned k.name value (Text.lines t)
  /-- Other names have the values in the file that counts. -/
  get?_other : ∀ name, name ∉ Key.all.map Key.name → ∀ value, bs.get? name = some value ↔
    ∃ t, Source files (candidates environment project) t ∧ LastAssigned name value (Text.lines t)
  /-- The time that a test may take follows from the two keys for it. -/
  timeLimit : TimeLimit bs (timeout bs)

theorem load_eq_ok_iff : load files environment project = .ok bs ↔
    ∃ t?, firstText files (candidates environment project) = .ok t? ∧
      overlay environment ((t?.map assignments).getD []) = bs := by
  rw [load, bind_eq_ok_iff]
  refine exists_congr fun t? => and_congr_right fun _ => ?_
  exact ⟨Except.ok.inj, congrArg Except.ok⟩

/-- What is found in the file that counts, if there is one. -/
theorem get?_of_firstText {ps : List Path} {t? : Option Text} (h : firstText files ps = .ok t?)
    (name value : Text) : Bindings.get? name ((t?.map assignments).getD []) = some value ↔
      ∃ t, Source files ps t ∧ LastAssigned name value (Text.lines t) := by
  simp only [← firstText_eq_ok_iff, h]
  cases t? with
  | none =>
    constructor
    · rintro ⟨⟩
    · rintro ⟨t, ⟨⟩, -⟩
  | some s =>
    rw [Option.map_some, Option.getD_some, get?_assignments]
    constructor
    · intro hs
      exact ⟨s, rfl, hs⟩
    · rintro ⟨t, heq, ht⟩
      obtain rfl := Option.some.inj (Except.ok.inj heq)
      exact ht

theorem precedence_of_load (h : load files environment project = .ok bs) :
    Precedence files environment project bs := by
  obtain ⟨t?, htext, rfl⟩ := load_eq_ok_iff.1 h
  refine ⟨fun k value => ?_, fun name hname value => ?_, timeLimit_timeout _⟩
  · rw [get?_overlay, if_pos (name_mem k), Option.or_eq_some_iff, get?_of_firstText htext]
  · rw [get?_overlay, if_neg hname, get?_of_firstText htext]

/-- **Which setting counts.** Where the candidates are texts, it can be told what is configured
unless the system refuses to look for one of them, all in front of it being of no use. Then the
environment takes precedence over the first candidate that is there and can be read, and no other
candidate counts. Otherwise nothing is told at all, although the next candidate might be read.

A tree of files knows no permission to look for a file. Where a system has such permissions, it may
refuse to look for a candidate for want of one, and then nothing is told either. -/
theorem load_iff_not_tooLong
    (htext : Legible files (candidates environment project)) :
    ((∃ bs, load files environment project = .ok bs ∧ Precedence files environment project bs) ↔
      ∀ p, Reached files (candidates environment project) p → ¬ TooLong files p) ∧
    ∀ p, Reached files (candidates environment project) p → TooLong files p →
      load files environment project = .error (.file .tooLong p.text) := by
  constructor
  · have hload : Answers (load files environment project) ↔
        Answers (firstText files (candidates environment project)) :=
      answers_bind_of_forall fun _ => answers_pure _
    rw [answers_firstText_iff, and_iff_right htext] at hload
    simp only [answers_has_iff] at hload
    rw [← hload]
    constructor
    · rintro ⟨bs, hbs, -⟩
      exact ⟨bs, hbs⟩
    · rintro ⟨bs, hbs⟩
      exact ⟨bs, hbs, precedence_of_load hbs⟩
  · intro p hreached htooLong
    refine bind_eq_error_iff.2 (Or.inl ?_)
    exact firstText_eq_error_iff.2 ⟨p, hreached, .hidden htooLong⟩

end

/-- A file with a text. -/
def holding (t : Text) : Node := .file { content := Utf8.encode t }

/-- A directory with settings in two files, one of them assigned twice, and a directory among the
candidates. -/
def layered : Files where
  root := .directory [("settings".toList, .directory []),
    (fileName, holding "SAR_USERNAME=a\n#SAR_USERNAME=x\nSAR_USERNAME = \"b\"\nSAR_SERVER_URL=u\n"),
    ("project".toList, .directory [(fileName, holding "SAR_PASSWORD=p\n")])]

/-- An environment with a setting that is empty. -/
def sparse : Bindings := [(fileVariable, "settings".toList), (Key.url.name, [])]

/-- The directory is passed over, the file behind it counts, and the last one does not. -/
theorem load_layered : Legible layered (candidates sparse "/project".toList) ∧
    ∃ bs, load layered sparse "/project".toList = .ok bs ∧
      Precedence layered sparse "/project".toList bs ∧ bs.get? Key.user.name = some "b".toList ∧
        bs.get? Key.url.name = some [] ∧ bs.get? Key.password.name = none := by
  have hlegible : Legible layered (candidates sparse "/project".toList) := by
    have hall : ∀ p ∈ candidates sparse "/project".toList, (layered.read p).toOption.all
        (fun bytes => (Utf8.decode bytes).toOption.isSome) = true := by decide +kernel
    intro p hreached _ bytes hread
    have hp := hall p hreached.mem
    rw [hread] at hp
    exact answers_iff_isSome.2 hp
  have hfound : ∀ p, Reached layered (candidates sparse "/project".toList) p →
      ¬ TooLong layered p := by
    have hall : ∀ p ∈ candidates sparse "/project".toList, Answers (layered.has p) := by
      decide +kernel
    intro p hreached
    exact answers_has_iff.1 (hall p hreached.mem)
  obtain ⟨bs, hbs, hprecedence⟩ := (load_iff_not_tooLong hlegible).1.2 hfound
  refine ⟨hlegible, bs, hbs, hprecedence, ?_⟩
  obtain rfl := Except.ok.inj ((rfl : load layered sparse "/project".toList = .ok _).symm.trans hbs)
  decide +kernel

/-- A directory with a setting in the file that is read as a rule. -/
def plain : Files where
  root := .directory [(fileName, holding "SAR_USERNAME=alice\n")]

set_option maxRecDepth 4000 in
/-- A name that no file can have keeps what is configured from being told, with a file at hand that
could be read. -/
theorem load_of_longName :
    load plain [(fileVariable, Text.copies 256 'a')] "/project".toList =
        .error (.file .tooLong (Text.copies 256 'a')) ∧
      plain.readText (Path.ofText fileName) = .ok "SAR_USERNAME=alice\n".toList :=
  ⟨rfl, rfl⟩

end ScriptAudit.Configuration
