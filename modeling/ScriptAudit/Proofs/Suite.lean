import ScriptAudit.Proofs.Check.Answers
import ScriptAudit.Suite
import ScriptAudit.Yaml.Standard

/-!
# Which suites can be reviewed

A sweep reviews file after file, `Suite.sweep_eq_mapM`. A file that cannot be read has an entry of
its own, but a text that has no review ends the sweep: the fault of the first such file is all that
comes of it (`Suite.sweep_eq_error_iff`). A sweep that comes to its end has one entry for each file
(`Suite.file_of_sweep`).
-/

namespace ScriptAudit

variable {files : Files}

/-! ## Files -/

theorem Files.readText_eq_nullInPath_iff {p : Path} :
    files.readText p = .error .nullInPath ↔ Path.hasNull p.text = true := by
  have hnode : files.node p = .error .nullInPath ↔ Path.hasNull p.text = true := by
    rw [node]
    split
    · next h => exact iff_of_true rfl h
    · next h =>
      refine iff_of_false (fun hn => ?_) h
      cases hfrom : files.nodeFrom files.current p.text <;> simp [hfrom, Except.mapError] at hn
  rw [← hnode, readText, bind_eq_error_iff, read, bind_eq_error_iff]
  constructor
  · rintro ((h | ⟨n, _, h⟩) | ⟨bytes, _, h⟩)
    · exact h
    · cases n <;> cases h
    · split at h <;> cases h
  · exact fun h => Or.inl (Or.inl h)

/-- Whether a file has a review or an entry that says why it cannot be read. -/
structure Files.Reviewable [Yaml.Loader] (files : Files) (path : Text) : Prop where
  hasNull_eq_false : Path.hasNull (Path.ofText path).text = false
  text : ∀ t, files.readText (Path.ofText path) = .ok t → ScriptAudit.Reviewable t

theorem FileReview.answers_ofFile_iff [Yaml.Loader] (strict : Bool) {path : Text} :
    Answers (ofFile files strict path) ↔ files.Reviewable path := by
  have hnull : files.readText (Path.ofText path) = .error .nullInPath ↔
      Path.hasNull (Path.ofText path).text = true := Files.readText_eq_nullInPath_iff
  rw [ofFile]
  cases hread : files.readText (Path.ofText path) with
  | ok t =>
    have hname : Path.hasNull (Path.ofText path).text = false := by
      rw [← Bool.not_eq_true, ← hnull, hread]
      exact nofun
    refine ((answers_bind_of_forall fun _ => answers_pure _).trans Review.answers_ofText_iff).trans
      ⟨fun h => ⟨hname, fun t' ht' => ?_⟩, fun h => h.text t hread⟩
    rw [hread] at ht'
    exact Except.ok.inj ht' ▸ h
  | error f =>
    rw [hread] at hnull
    by_cases hf : f = .nullInPath
    · subst hf
      exact iff_of_false (not_answers_error _) fun h =>
        Bool.false_ne_true (h.hasNull_eq_false.symm.trans (hnull.1 rfl))
    · have hname : Path.hasNull (Path.ofText path).text = false := by
        rw [← Bool.not_eq_true, ← hnull]
        exact fun h => hf (Except.error.inj h)
      refine iff_of_true ?_ ⟨hname, fun t ht => by rw [hread] at ht; cases ht⟩
      split
      · next h => cases h
      · next h => exact absurd (Except.error.inj h) hf
      · exact answers_pure _

/-! ## Sweeps -/

namespace Suite

variable {paths : List Text} {f : Fault}

/-- A sweep that is not stopped reviews all files. -/
theorem sweep_eq_mapM [Yaml.Loader] (files : Files) (paths : List Text) :
    sweep files false paths =
      paths.mapM fun p => (FileReview.ofFile files true p).map (Entry.ofReview p) := by
  induction paths with
  | nil => rfl
  | cons p ps ih =>
    rw [sweep, List.mapM_cons, ih]
    cases FileReview.ofFile files true p with
    | error => rfl
    | ok r => rfl

theorem answers_sweep_iff [Yaml.Loader] :
    Answers (sweep files false paths) ↔ ∀ p ∈ paths, files.Reviewable p := by
  rw [sweep_eq_mapM, answers_mapM_iff]
  simp only [answers_map_iff, FileReview.answers_ofFile_iff]

/-- **The first file without a review ends a sweep.** -/
theorem sweep_eq_error_iff [Yaml.Loader] : sweep files false paths = .error f ↔
    ∃ front p back, paths = front ++ p :: back ∧ (∀ q ∈ front, files.Reviewable q) ∧
      FileReview.ofFile files true p = .error f := by
  rw [sweep_eq_mapM, mapM_eq_error_iff]
  simp only [answers_map_iff, FileReview.answers_ofFile_iff, map_eq_error_iff]

theorem file_ofReview (p : Text) (r : FileReview) : (Entry.ofReview p r).file = p := by
  cases r <;> rfl

/-- **A sweep has an entry for each file**, in order. -/
theorem file_of_sweep [Yaml.Loader] {es : List Entry} (h : sweep files false paths = .ok es) :
    es.map (·.file) = paths := by
  induction paths generalizing es with
  | nil =>
    cases h
    rfl
  | cons p ps ih =>
    rw [sweep_eq_mapM, List.mapM_cons, ← sweep_eq_mapM] at h
    obtain ⟨e, he, h⟩ := bind_eq_ok_iff.1 h
    obtain ⟨rest, hrest, h⟩ := bind_eq_ok_iff.1 h
    obtain ⟨r, -, rfl⟩ := map_eq_ok_iff.1 he
    cases h
    rw [List.map_cons, file_ofReview, ih hrest]

end Suite

/-! ## Suites -/

namespace SuiteReview

/-- A suite is reviewed by a sweep over the documents of its directory. -/
theorem ofDirectory_eq_map_sweep [Yaml.Loader] {recursive stop : Bool} {directory : Text}
    {tests : List Text}
    (hdirectory : files.hasDirectory (Path.ofText directory) = .ok true)
    (htests : Suite.testFiles files recursive directory = .ok tests) :
    ofDirectory files recursive stop directory =
      (Suite.sweep files stop tests).map fun es => some ⟨directory, tests.length, es⟩ := by
  rw [ofDirectory, hdirectory, htests]
  change (Suite.sweep files stop tests >>= fun es =>
    pure (some (⟨directory, tests.length, es⟩ : SuiteReview))) = _
  cases Suite.sweep files stop tests <;> rfl

theorem sweep_of_ofDirectory [Yaml.Loader] {recursive stop : Bool} {directory : Text}
    {tests : List Text} (hdirectory : files.hasDirectory (Path.ofText directory) = .ok true)
    (htests : Suite.testFiles files recursive directory = .ok tests) {r : SuiteReview}
    (h : ofDirectory files recursive stop directory = .ok (some r)) :
    Suite.sweep files stop tests = .ok r.entries := by
  rw [ofDirectory_eq_map_sweep hdirectory htests] at h
  obtain ⟨es, hes, heq⟩ := map_eq_ok_iff.1 h
  cases heq
  exact hes

/-- The faults of a sweep over the documents of a directory, and its entries when there is none. -/
structure Sweeps [Yaml.Loader] (files : Files) (recursive : Bool) (directory : Text)
    (tests : List Text) : Prop where
  answers_iff :
    Answers (ofDirectory files recursive false directory) ↔ ∀ p ∈ tests, files.Reviewable p
  eq_error_iff : ∀ f, ofDirectory files recursive false directory = .error f ↔
    ∃ front p back, tests = front ++ p :: back ∧ (∀ q ∈ front, files.Reviewable q) ∧
      FileReview.ofFile files true p = .error f
  file : ∀ r, ofDirectory files recursive false directory = .ok (some r) →
    r.entries.map (·.file) = tests

theorem sweeps_of_testFiles [Yaml.Loader] {recursive : Bool} {directory : Text} {tests : List Text}
    (hdirectory : files.hasDirectory (Path.ofText directory) = .ok true)
    (htests : Suite.testFiles files recursive directory = .ok tests) :
    Sweeps files recursive directory tests where
  answers_iff := by
    rw [ofDirectory_eq_map_sweep hdirectory htests, answers_map_iff, Suite.answers_sweep_iff]
  eq_error_iff f := by
    rw [ofDirectory_eq_map_sweep hdirectory htests, map_eq_error_iff, Suite.sweep_eq_error_iff]
  file r hr := Suite.file_of_sweep (sweep_of_ofDirectory hdirectory htests hr)

end SuiteReview

/-! ## Static analysis -/

/-- **What keeps static analysis from answering.** A text is read as a document unless the settings
at its head are unreadable, and then every review of it has their fault; settings that are no
mapping otherwise count as none. All checks of the document together answer unless its metadata
cannot be shown, since only the check of the metadata can fail, and so does the review of the text,
strict or not. A sweep over the documents of a directory has an entry for each of them, unless one
has no review: the first such one ends it. All this is so whatever the loader makes of settings. -/
theorem static_analysis_answers_iff [Yaml.Loader] (t : Text) (strict : Bool) (files : Files)
    (recursive : Bool) (directory : Text) (tests : List Text) :
    (∀ f, Document.read t = .error f ↔
      ∃ block ∈ Document.settings? t, Metadata.Unreadable block f) ∧
    (∀ d, Document.read t = .ok d →
      (d.metadata = none ↔ ¬ ∃ block ∈ Document.settings? t,
        ∃ entries, Yaml.Loader.load block = .ok (.map entries)) ∧
      (Answers (Check.all d) ↔ ∀ s ∈ d.metadata, s.Showable)) ∧
    (Answers (Review.ofText strict t) ↔ Reviewable t) ∧
    (Answers (PhaseReview.ofText t) ↔ Answers (Document.read t)) ∧
    (Answers (CommandReview.ofText t) ↔ Answers (Document.read t)) ∧
    (files.hasDirectory (Path.ofText directory) = .ok true →
      Suite.testFiles files recursive directory = .ok tests →
      SuiteReview.Sweeps files recursive directory tests) :=
  ⟨fun _ => Document.read_eq_error_iff,
    fun d hd => ⟨Document.metadata_eq_none_iff hd, (Check.shownWhen_all d).answers_iff⟩,
    Review.answers_ofText_iff, PhaseReview.answers_ofText_iff, CommandReview.answers_ofText_iff,
    SuiteReview.sweeps_of_testFiles⟩

/-- A directory of two documents, the first one of which has this text. -/
def Files.withDocument (t : Text) : Files where
  root := .directory [("t", .directory
    [("a.md", .file { content := Utf8.encode t }), ("b.md", .file { content := [] })])]

/-- Settings with a list that is not closed. -/
def unclosedList : Text := "---\ntype: [a\n---\n"

/-- A document with settings that are not well formed has no metadata, and its suite is reviewed as
a whole. -/
theorem entries_of_unclosedList :
    (∃ d, Document.read unclosedList = .ok d ∧ d.metadata = none ∧ Answers (Check.all d)) ∧
    ∃ r, SuiteReview.ofDirectory (.withDocument unclosedList) true false "t" = .ok (some r) ∧
      r.entries.map (·.file) = ["t/a.md".toList, "t/b.md".toList] := by
  let files : Files := .withDocument unclosedList
  have htests : Suite.testFiles files true "t" = .ok ["t/a.md".toList, "t/b.md".toList] := by
    change Except.ok (List.mergeSort _ _) = _
    rw [List.mergeSort_of_pairwise (by decide +kernel)]
    exact congrArg Except.ok (by decide +kernel)
  obtain ⟨-, hread, -, -, -, hsweeps⟩ := static_analysis_answers_iff unclosedList true files true
    "t" ["t/a.md".toList, "t/b.md".toList]
  constructor
  · obtain ⟨d, hd⟩ : Answers (Document.read unclosedList) := by decide +kernel
    have hsettings : Document.settings? unclosedList = some "\ntype: [a\n" := by decide +kernel
    have hload : ¬ Answers (Yaml.load "\ntype: [a\n") := by decide +kernel
    have hnone : d.metadata = none := by
      refine (hread d hd).1.2 ?_
      rintro ⟨block, hblock, entries, hentries⟩
      obtain rfl := Option.some.inj (hsettings.symm.trans hblock)
      exact hload ⟨_, hentries⟩
    exact ⟨d, hd, hnone, (hread d hd).2.2 (by simp [hnone])⟩
  · have hsweep := hsweeps rfl htests
    have hall : Answers (SuiteReview.ofDirectory files true false "t") := by
      rw [hsweep.answers_iff]
      simp only [← FileReview.answers_ofFile_iff true]
      decide +kernel
    obtain ⟨o, ho⟩ := hall
    obtain ⟨es, -, rfl⟩ : ∃ es, _ ∧ some _ = o := map_eq_ok_iff.1
      ((SuiteReview.ofDirectory_eq_map_sweep rfl htests).symm.trans ho)
    exact ⟨_, ho, hsweep.file _ ho⟩

/-- A text is not read, it has no review, strict or not, and the sweep over a directory with such a
document comes to no end. -/
structure Unanswered [Yaml.Loader] (t : Text) : Prop where
  read : ¬ Answers (Document.read t)
  review : ∀ strict, ¬ Answers (Review.ofText strict t)
  sweep : ¬ Answers
    (Suite.sweep (.withDocument t) false ["t/a.md".toList, "t/b.md".toList])

theorem unanswered_of_unreadable [Yaml.Loader] {t block : Text} {f : Fault}
    (hsettings : Document.settings? t = some block) (hunreadable : Metadata.Unreadable block f)
    (hfile : (Files.withDocument t).readText (Path.ofText "t/a.md") = .ok t) : Unanswered t := by
  have hread : Document.read t = .error f :=
    Document.read_eq_error_iff.2 ⟨block, hsettings, hunreadable⟩
  have hreviewable : ¬ Reviewable t := by
    rintro ⟨d, hd, -⟩
    cases hread.symm.trans hd
  refine ⟨hread ▸ not_answers_error f, fun strict => ?_, ?_⟩
  · rwa [Review.answers_ofText_iff]
  · rw [Suite.answers_sweep_iff]
    exact fun hall => hreviewable ((hall _ List.mem_cons_self).text t hfile)

/-- A document whose type is a date in a month that does not exist. -/
def impossibleDate : Text := "---\ntype: 2024-13-01\n---\n"

/-- A date that does not exist keeps the text from being read, and the rest of its suite from being
reviewed, with every loader that fails on it; the standard one does. -/
theorem not_answers_impossibleDate :
    (∀ [Yaml.Loader] (f : Fault), Yaml.Loader.load "\ntype: 2024-13-01\n" = .error (.fault f) →
      Unanswered impossibleDate) ∧
    (∃ f, Yaml.load "\ntype: 2024-13-01\n" = .error (.fault f)) ∧
    Unanswered impossibleDate := by
  have hsettings : Document.settings? impossibleDate = some "\ntype: 2024-13-01\n" := by
    decide +kernel
  have hfile : (Files.withDocument impossibleDate).readText (Path.ofText "t/a.md") =
      .ok impossibleDate :=
    eq_ok_iff_toOption.2 (by decide +kernel)
  have hrefused : ¬ Answers (Yaml.load "\ntype: 2024-13-01\n") := by decide +kernel
  have hunread : ¬ Answers (Metadata.read? "\ntype: 2024-13-01\n") := by decide +kernel
  obtain ⟨f, hload⟩ : ∃ f, Yaml.load "\ntype: 2024-13-01\n" = .error (.fault f) := by
    obtain ⟨f, hf⟩ := not_answers_iff.1 hunread
    obtain hload | ⟨-, entries, hload, -⟩ := Metadata.read?_eq_error_iff.1 hf
    · exact ⟨f, hload⟩
    · exact absurd ⟨_, hload⟩ hrefused
  exact ⟨fun f hf => unanswered_of_unreadable hsettings (Or.inl hf) hfile, ⟨f, hload⟩,
    unanswered_of_unreadable hsettings (Or.inl hload) hfile⟩

end ScriptAudit
