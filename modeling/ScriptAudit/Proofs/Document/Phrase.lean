import ScriptAudit.Proofs.Document.Target
import ScriptAudit.Proofs.Text.Clause

/-!
# Written commands

A command is written as its keyword, its flags, its target and its clauses, with single blanks
between them. Each clause is looked for in the whole line, so that none of the parts may hold a word
that another one is looked for by. Main statement: then reading the line gives the parts back
(`Phrase.ofLine?_text`).

* `Phrase`, `Phrase.text`, `Phrase.Plain` — the parts of a command, the line they make up, and what
  the parts may be.
* `conditionFrom?_append`, `dottedNames_append` — where a condition and a dotted name end.
* `Phrase.into_text`, `Phrase.using_text`, `Phrase.condition_text`, `Phrase.found_flag`,
  `Phrase.target_text` — what each of the six searches finds.
-/

namespace ScriptAudit

namespace Command

/-! ## Phrases -/

/-- The flags of a command. -/
inductive Flag
  /-- The command may fail. -/
  | catchError
  /-- The command has to fail. -/
  | expectFail
  deriving DecidableEq

/-- A flag as it is written. -/
def Flag.name : Flag → Text
  | catchError => "CatchError"
  | expectFail => "ExpectFail"

/-- What a command with a target is written from. The variable that it uses is a list of names. -/
structure Phrase where
  keyword : Text
  flags : List Flag
  target : Text
  condition : Option Text
  using_ : Option (List Text)
  into : Option Text

/-- The words by which clauses and flags are looked for. -/
def clauseWords : List Text :=
  ["Into".toList, "Using".toList, "When".toList, "CatchError".toList, "ExpectFail".toList]

/-- None of the words by which clauses and flags are looked for is in the text. -/
def IsFree (t : Text) : Prop := ∀ word ∈ clauseWords, Text.Lacks word t

instance (t : Text) : Decidable (IsFree t) :=
  inferInstanceAs (Decidable (∀ word ∈ clauseWords, Text.Lacks word t))

namespace Phrase

/-- A clause, if there is one. -/
def clause (word : Text) (part : Option Text) : List Text :=
  (part.map fun t => [word, t]).getD []

/-- The names that the command uses, with dots between them. -/
def dotted (p : Phrase) : Option Text := p.using_.map (Text.joinWith ['.'])

/-- The parts of the line in front of the clauses. -/
def front (p : Phrase) : List Text := p.keyword :: (p.flags.map Flag.name ++ [p.target])

/-- The parts of the line in its clauses. -/
def clauses (p : Phrase) : List Text :=
  clause "When" p.condition ++ (clause "Using" p.dotted ++ clause "Into" p.into)

/-- The line of a command. -/
def text (p : Phrase) : Text := Text.joinWith [' '] (p.front ++ p.clauses)

/-- The parts of the line behind the keyword, without the flags. -/
def parts (p : Phrase) : List Text :=
  p.target :: (p.condition.toList ++ (p.dotted.toList ++ p.into.toList))

/-- The parts of a command with the given keyword, none of which could be taken for another one. -/
structure Plain (k : Keyword) (p : Phrase) : Prop where
  keyword_eq : p.keyword.map foldLetter = k.name.map foldLetter
  target_ne_nil : p.target ≠ []
  target_isBlank : ∀ c ∈ p.target, isBlank c = false
  condition_ne_nil : ∀ t ∈ p.condition, t ≠ []
  condition_trim : ∀ t ∈ p.condition, Text.trim t = t
  condition_newline : ∀ t ∈ p.condition, '\n' ∉ t
  using_ne_nil : ∀ names ∈ p.using_, names ≠ []
  using_isName : ∀ names ∈ p.using_, ∀ t ∈ names, Text.IsName t
  into_isName : ∀ t ∈ p.into, Text.IsName t
  free : ∀ t ∈ p.parts, IsFree t

end Phrase

/-! ## The end of a clause -/

/-- A condition does not end inside of a text without the words `Into` and `Using`. -/
theorem endsCondition_append {t rest : Text} (hne : t ≠ [])
    (hlast : ∀ c ∈ t.getLast?, isBlank c = false) (hnewline : '\n' ∉ t)
    (hinto : Text.Lacks "Into" t) (husing : Text.Lacks "Using" t)
    (hrest : ∀ c ∈ rest.head?, isBlank c = true) : endsCondition (t ++ rest) = false := by
  have hblank : Text.blank t = false := by
    rw [Text.blank, List.all_eq_false]
    refine ⟨t.getLast hne, List.getLast_mem hne, ?_⟩
    rw [hlast _ (List.getLast?_eq_some_getLast hne)]
    exact Bool.false_ne_true
  have hleft : Text.trimLeft (t ++ rest) = Text.trimLeft t ++ rest := by
    rw [Text.trimLeft_append, hblank, if_neg Bool.false_ne_true]
  have hsuffix : Text.trimLeft t <:+ t := List.dropWhile_suffix _
  have hempty : (t ++ rest).isEmpty = false := by
    rw [List.isEmpty_eq_false_iff]
    exact List.append_ne_nil_of_left_ne_nil hne rest
  have hfeed : (t ++ rest == ['\n']) = false := by
    rw [beq_eq_false_iff_ne]
    intro heq
    obtain ⟨c, t, rfl⟩ := List.exists_cons_of_ne_nil hne
    obtain ⟨rfl, -⟩ := List.cons.inj heq
    exact hnewline List.mem_cons_self
  rw [endsCondition, hempty, hfeed, hleft,
    Text.afterKeyword?_append_of_head? hrest (by decide) (hinto _ hsuffix),
    Text.afterKeyword?_append_of_head? hrest (by decide) (husing _ hsuffix)]
  simp

/-- A condition goes on up to where it may end. -/
theorem conditionFrom?_append {t rest : Text} (hne : t ≠ [])
    (hlast : ∀ c ∈ t.getLast?, isBlank c = false) (hnewline : '\n' ∉ t)
    (hinto : Text.Lacks "Into" t) (husing : Text.Lacks "Using" t)
    (hrest : ∀ c ∈ rest.head?, isBlank c = true) (hend : endsCondition rest = true) :
    conditionFrom? (t ++ rest) = some t := by
  induction t with
  | nil => exact absurd rfl hne
  | cons c t ih =>
    rw [List.mem_cons, not_or] at hnewline
    rw [List.cons_append, conditionFrom?, if_neg (Ne.symm hnewline.1)]
    cases t with
    | nil => rw [List.nil_append, if_pos hend]
    | cons d t =>
      rw [List.getLast?_cons_cons] at hlast
      rw [endsCondition_append (by simp) hlast hnewline.2 hinto.tail husing.tail hrest,
        if_neg Bool.false_ne_true, ih (by simp) hlast hnewline.2 hinto.tail husing.tail]
      rfl

theorem isWord_head?_dotted (names : List Text) {rest : Text}
    (hrest : ∀ c ∈ rest.head?, isBlank c = true) :
    ∀ c ∈ (names.flatMap ('.' :: ·) ++ rest).head?, isWord c = false := by
  cases names with
  | nil => exact fun c hc => isWord_eq_false_of_isBlank (hrest c hc)
  | cons t names => exact fun c hc => Option.some.inj hc ▸ by decide

/-- Further names go on as long as there are dots. -/
theorem dottedNames_append {names : List Text} (h : ∀ t ∈ names, Text.IsName t) {rest : Text}
    (hrest : ∀ c ∈ rest.head?, isBlank c = true) :
    dottedNames (names.flatMap ('.' :: ·) ++ rest) = names.flatMap ('.' :: ·) := by
  induction names with
  | nil =>
    cases rest with
    | nil => rw [List.flatMap_nil, List.append_nil, dottedNames]; simp
    | cons c rest =>
      have hc : c ≠ '.' := by
        rintro rfl
        exact absurd (hrest '.' rfl) (by decide)
      rw [List.flatMap_nil, List.nil_append, dottedNames]
      rintro d t heq
      exact hc (List.cons.inj heq).1
  | cons t names ih =>
    obtain ⟨hne, hword⟩ := h t List.mem_cons_self
    obtain ⟨c, t, rfl⟩ := List.exists_cons_of_ne_nil hne
    have hrun : ∀ d ∈ t, isWord d = true := fun d hd => hword d (List.mem_cons_of_mem c hd)
    have hnext := isWord_head?_dotted names hrest
    rw [List.flatMap_cons, List.append_assoc, List.cons_append, List.cons_append, dottedNames,
      if_pos (hword c List.mem_cons_self), Text.takeWhile_append_of_head? hrun hnext,
      Text.dropWhile_append_of_head? hrun hnext, ih fun u hu => h u (List.mem_cons_of_mem _ hu)]

/-- A condition ends in front of the clauses behind it. -/
theorem endsCondition_of_keyword {word : Text} (h : word = "Into".toList ∨ word = "Using".toList)
    (rest : Text) : endsCondition (' ' :: (word ++ rest)) = true := by
  have hleft : Text.trimLeft (' ' :: (word ++ rest)) = word ++ rest := by
    rcases h with rfl | rfl <;> rfl
  rw [endsCondition, hleft]
  rcases h with rfl | rfl
  · rw [Text.afterKeyword?_self_append "Into"]
    simp
  · rw [Text.afterKeyword?_self_append "Using"]
    simp

/-! ## The clauses -/

theorem usingClause_eq (before : Option Char) (t : Text) :
    usingClause before t =
      if Text.wordStarts before then
        match Text.afterKeyword? "Using" t with
        | none => none
        | some rest =>
          let blanks := rest.takeWhile isBlank
          let name := (rest.dropWhile isBlank).takeWhile isWord
          let names := name ++ dottedNames ((rest.dropWhile isBlank).dropWhile isWord)
          if blanks.isEmpty || name.isEmpty then none
          else some (names, 5 + blanks.length + names.length)
      else none := by
  rw [usingClause]
  cases Text.wordStarts before
  · rfl
  · cases Text.afterKeyword? "Using" t with
    | none => rfl
    | some rest =>
      simp only [← Text.drop_length_takeWhile]
      rfl

theorem whenClause_eq (before : Option Char) (t : Text) :
    whenClause before t =
      if Text.wordStarts before then
        match Text.afterKeyword? "When" t with
        | none => none
        | some rest =>
          (conditionAfter? (rest.takeWhile isBlank) (rest.dropWhile isBlank)).map fun t => (t, 4)
      else none := by
  rw [whenClause]
  cases Text.wordStarts before
  · rfl
  · cases Text.afterKeyword? "When" t with
    | none => rfl
    | some rest =>
      simp only [← Text.drop_length_takeWhile]
      show (conditionAfter? _ _).bind _ = _
      generalize conditionAfter? (rest.takeWhile isBlank) _ = condition
      cases condition <;> rfl

theorem seeks_usingClause : usingClause.Seeks "Using" := by
  intro before t h
  rw [usingClause_eq, h]
  split <;> rfl

theorem seeks_whenClause : whenClause.Seeks "When" := by
  intro before t h
  rw [whenClause_eq, h]
  split <;> rfl

section

variable {rest : Text} (hrest : ∀ c ∈ rest.head?, isBlank c = true)
include hrest

/-- Dotted names are found behind their keyword. -/
theorem usingClause_append {names : List Text} (hne : names ≠ []) (h : ∀ t ∈ names, Text.IsName t) :
    ∃ n, usingClause (some ' ') ("Using".toList ++ ' ' :: (Text.joinWith ['.'] names ++ rest)) =
      some (Text.joinWith ['.'] names, n) := by
  obtain ⟨t, names, rfl⟩ := List.exists_cons_of_ne_nil hne
  have ht : Text.IsName t := h t List.mem_cons_self
  have hnext := isWord_head?_dotted names hrest
  have hnames := dottedNames_append (fun u hu => h u (List.mem_cons_of_mem t hu)) hrest
  have hhead := ht.isBlank_head? (names.flatMap ('.' :: ·) ++ rest)
  rw [Text.joinWith_eq, List.append_assoc, usingClause_eq, Text.afterKeyword?_self_append,
    if_pos (by decide)]
  simp only [Text.takeWhile_isBlank_cons hhead, Text.dropWhile_isBlank_cons hhead,
    Text.takeWhile_append_of_head? ht.2 hnext, Text.dropWhile_append_of_head? ht.2 hnext, hnames]
  exact ⟨_, if_neg (by simp [ht.1])⟩

/-- A condition is found behind its keyword. -/
theorem whenClause_append {t : Text} (hne : t ≠ []) (htrim : Text.trim t = t)
    (hnewline : '\n' ∉ t) (hinto : Text.Lacks "Into" t) (husing : Text.Lacks "Using" t)
    (hend : endsCondition rest = true) :
    whenClause (some ' ') ("When".toList ++ ' ' :: (t ++ rest)) = some (t, 4) := by
  have hhead : ∀ c ∈ (t ++ rest).head?, isBlank c = false := by
    intro c hc
    rw [List.head?_append_of_ne_nil _ hne, ← htrim] at hc
    exact Text.isBlank_head_trim hc
  have hlast : ∀ c ∈ t.getLast?, isBlank c = false := by
    intro c hc
    rw [← htrim] at hc
    exact Text.isBlank_getLast_trim hc
  rw [whenClause_eq, Text.afterKeyword?_self_append, if_pos (by decide)]
  simp only [Text.takeWhile_isBlank_cons hhead, Text.dropWhile_isBlank_cons hhead]
  rw [conditionAfter?, conditionAfter?, List.nil_append,
    conditionFrom?_append hne hlast hnewline hinto husing hrest hend]
  rfl

end

/-- What is found of a clause when nothing else holds its keyword. -/
theorem first?_clause {r : Recogniser Text} {word : Text} (h : r.Seeks word)
    (hletters : word.all (fun k => (foldLetter k).isAlpha) = true) {ts more : List Text}
    (hne : ts ≠ []) (hts : ∀ t ∈ ts, Text.Lacks word t) (hmore : ∀ t ∈ more, Text.Lacks word t)
    {part : Option Text}
    (hpart : ∀ t ∈ part, ∃ n,
      r (some ' ') (word ++ ' ' :: (t ++ more.flatMap (' ' :: ·))) = some (t, n)) :
    r.first? (Text.joinWith [' '] (ts ++ (Phrase.clause word part ++ more))) = part := by
  cases part with
  | none =>
    refine h.first?_joinWith hletters (by simp [hne]) ?_
    exact List.forall_mem_append.2 ⟨hts, hmore⟩
  | some t =>
    obtain ⟨n, hfound⟩ := hpart t rfl
    refine h.first?_joinWith_append hletters hne hts (n := n) (by simp [Phrase.clause]) ?_
    show r (some ' ') (Text.joinWith [' '] (word :: t :: more)) = _
    rw [Text.joinWith_eq, List.flatMap_cons, List.cons_append]
    exact hfound

/-! ## What is read of a phrase -/

namespace Phrase

variable {k : Keyword} {p : Phrase}

theorem head?_flatMap (ts : List Text) : ∀ c ∈ (ts.flatMap (' ' :: ·)).head?, isBlank c = true := by
  cases ts with
  | nil => simp
  | cons t ts => exact fun c hc => Option.some.inj hc ▸ by decide

theorem lacks_clause {word word' : Text} {part : Option Text} (hword : Text.Lacks word word')
    (hpart : ∀ t ∈ part, Text.Lacks word t) : ∀ t ∈ clause word' part, Text.Lacks word t := by
  cases part with
  | none => exact fun _ => nofun
  | some t => exact List.forall_mem_cons.2 ⟨hword, List.forall_mem_singleton.2 (hpart t rfl)⟩

namespace Plain

variable (h : p.Plain k)
include h

theorem target_free : IsFree p.target := h.free _ List.mem_cons_self

theorem condition_free : ∀ t ∈ p.condition, IsFree t := fun t ht =>
  h.free t (by simp [parts, Option.mem_def.1 ht])

theorem using_free : ∀ t ∈ p.dotted, IsFree t := fun t ht =>
  h.free t (by simp [parts, Option.mem_def.1 ht])

theorem into_free : ∀ t ∈ p.into, IsFree t := fun t ht =>
  h.free t (by simp [parts, Option.mem_def.1 ht])

/-- The word by which something is looked for is not in the keyword of the command. -/
theorem lacks_keyword {word : Text} (hword : word ∈ clauseWords) : Text.Lacks word p.keyword := by
  have hnames : ∀ word ∈ clauseWords, ∀ k : Keyword, Text.Lacks word k.name := by
    intro word hword k
    have hall : ∀ word ∈ clauseWords, ∀ k ∈ Keyword.all, Text.Lacks word k.name := by decide +kernel
    exact hall word hword k k.mem_all
  exact (hnames word hword k).of_map_eq h.keyword_eq.symm

theorem lacks_front {word : Text} (hword : word ∈ clauseWords)
    (hflags : ∀ f ∈ p.flags, Text.Lacks word f.name) : ∀ t ∈ p.front, Text.Lacks word t := by
  rw [front, List.forall_mem_cons, List.forall_mem_append, List.forall_mem_map]
  exact ⟨h.lacks_keyword hword, hflags, List.forall_mem_singleton.2 (h.target_free _ hword)⟩

theorem into_text : (Text.wordAfter "Into").first? p.text = p.into := by
  have hflags : ∀ f ∈ p.flags, Text.Lacks "Into" f.name := fun f _ => by cases f <;> decide
  have hword : "Into".toList ∈ clauseWords := by decide
  have hts : ∀ t ∈ p.front ++ (clause "When" p.condition ++ clause "Using" p.dotted),
      Text.Lacks "Into" t :=
    List.forall_mem_append.2 ⟨h.lacks_front hword hflags, List.forall_mem_append.2
      ⟨lacks_clause (by decide) fun t ht => h.condition_free t ht _ hword,
        lacks_clause (by decide) fun t ht => h.using_free t ht _ hword⟩⟩
  have htext : p.text = Text.joinWith [' ']
      ((p.front ++ (clause "When" p.condition ++ clause "Using" p.dotted)) ++
        (clause "Into" p.into ++ [])) := by
    rw [text, clauses, List.append_nil, List.append_assoc, List.append_assoc]
  rw [htext]
  exact first?_clause (Recogniser.seeks_wordAfter "Into") (by decide) (by simp [front]) hts
    (List.forall_mem_nil _) fun t ht =>
      ⟨_, Text.wordAfter_append "Into" (head?_flatMap []) (h.into_isName t ht)⟩

theorem using_text : usingClause.first? p.text = p.dotted := by
  have hflags : ∀ f ∈ p.flags, Text.Lacks "Using" f.name := fun f _ => by cases f <;> decide
  have hword : "Using".toList ∈ clauseWords := by decide
  have hts : ∀ t ∈ p.front ++ clause "When" p.condition, Text.Lacks "Using" t :=
    List.forall_mem_append.2 ⟨h.lacks_front hword hflags,
      lacks_clause (by decide) fun t ht => h.condition_free t ht _ hword⟩
  have hmore : ∀ t ∈ clause "Into" p.into, Text.Lacks "Using" t :=
    lacks_clause (by decide) fun t ht => h.into_free t ht _ hword
  have htext : p.text = Text.joinWith [' '] ((p.front ++ clause "When" p.condition) ++
      (clause "Using" p.dotted ++ clause "Into" p.into)) := by
    rw [text, clauses, List.append_assoc]
  rw [htext]
  refine first?_clause seeks_usingClause (by decide) (by simp [front]) hts hmore fun t ht => ?_
  obtain ⟨names, hnames, rfl⟩ := Option.map_eq_some_iff.1 ht
  exact usingClause_append (head?_flatMap _) (h.using_ne_nil names hnames)
    (h.using_isName names hnames)

theorem condition_text : whenClause.first? p.text = p.condition := by
  have hflags : ∀ f ∈ p.flags, Text.Lacks "When" f.name := fun f _ => by cases f <;> decide
  have hword : "When".toList ∈ clauseWords := by decide
  have hmore : ∀ t ∈ clause "Using" p.dotted ++ clause "Into" p.into, Text.Lacks "When" t :=
    List.forall_mem_append.2 ⟨lacks_clause (by decide) fun t ht => h.using_free t ht _ hword,
      lacks_clause (by decide) fun t ht => h.into_free t ht _ hword⟩
  have hend : endsCondition
      ((clause "Using" p.dotted ++ clause "Into" p.into).flatMap (' ' :: ·)) = true := by
    cases p.dotted with
    | some t => exact endsCondition_of_keyword (Or.inr rfl) _
    | none =>
      cases p.into with
      | some t => exact endsCondition_of_keyword (Or.inl rfl) _
      | none => rfl
  refine first?_clause seeks_whenClause (by decide) (by simp [front]) (h.lacks_front hword hflags)
    hmore fun t ht => ?_
  have hfree := h.condition_free t ht
  exact ⟨4, whenClause_append (head?_flatMap _) (h.condition_ne_nil t ht) (h.condition_trim t ht)
    (h.condition_newline t ht) (hfree _ (by decide)) (hfree _ (by decide)) hend⟩

theorem found_flag (f : Flag) : (Text.wholeWord f.name).found p.text = decide (f ∈ p.flags) := by
  have hword : f.name ∈ clauseWords := by cases f <;> decide
  have hletters : f.name.all (fun k => (foldLetter k).isAlpha) = true := by cases f <;> decide
  have hother : ∀ g ≠ f, Text.Lacks f.name g.name := by
    intro g hg
    cases f <;> cases g <;> first | exact absurd rfl hg | decide
  have hclauses : ∀ t ∈ p.clauses, Text.Lacks f.name t := by
    simp only [clauses, List.forall_mem_append]
    exact ⟨lacks_clause (by cases f <;> decide) fun t ht => h.condition_free t ht _ hword,
      lacks_clause (by cases f <;> decide) fun t ht => h.using_free t ht _ hword,
      lacks_clause (by cases f <;> decide) fun t ht => h.into_free t ht _ hword⟩
  have hseeks := Recogniser.seeks_wholeWord f.name
  rw [Recogniser.found]
  by_cases hf : f ∈ p.flags
  · obtain ⟨fs, gs, hsplit, hfs⟩ := List.eq_append_cons_of_mem hf
    have htext : p.text = Text.joinWith [' '] ((p.keyword :: fs.map Flag.name) ++
        (f.name :: (gs.map Flag.name ++ p.target :: p.clauses))) := by
      rw [text, front, hsplit]
      simp
    have hts : ∀ t ∈ p.keyword :: fs.map Flag.name, Text.Lacks f.name t := by
      rw [List.forall_mem_cons, List.forall_mem_map]
      exact ⟨h.lacks_keyword hword, fun g hg => hother g fun heq => hfs (heq ▸ hg)⟩
    rw [htext, hseeks.first?_joinWith_append hletters (by simp) hts (by simp)]
    · exact (decide_eq_true hf).symm
    · rw [Text.joinWith_eq]
      exact Text.wholeWord_append f.name (head?_flatMap _)
  · have hflags : ∀ g ∈ p.flags, Text.Lacks f.name g.name := fun g hg =>
      hother g fun heq => hf (heq ▸ hg)
    rw [text, hseeks.first?_joinWith hletters (by simp [front])
      (List.forall_mem_append.2 ⟨h.lacks_front hword hflags, hclauses⟩)]
    simp [hf]

/-- The flags, the target and the clauses stand behind the keyword. -/
theorem afterKeyword?_text : Text.afterKeyword? k.name p.text =
    some ((p.flags.map Flag.name ++ [p.target]).flatMap (' ' :: ·) ++
      p.clauses.flatMap (' ' :: ·)) := by
  rw [text, front, List.cons_append, Text.joinWith_eq, List.flatMap_append]
  exact Text.afterKeyword?_eq_some.2 ⟨p.keyword, rfl, h.keyword_eq⟩

theorem target_text (hk : k.hasTarget = true) : targetOf? k p.text = some p.target := by
  have hflags : ∀ w ∈ p.flags.map Flag.name, isFlag w = true ∧ w ≠ [] ∧ ∀ c ∈ w, isBlank c = false :=
    List.forall_mem_map.2 fun f _ => by
      cases f <;> exact ⟨by decide, by decide, Text.forall_mem_of_all (by decide)⟩
  have htarget : isFlag p.target = false := by
    have hnone : ∀ f : Flag, Text.afterKeyword? f.name p.target = none := fun f =>
      h.target_free f.name (by cases f <;> decide) _ List.suffix_rfl
    rw [isFlag, show Text.afterKeyword? "CatchError" p.target = none from hnone .catchError,
      show Text.afterKeyword? "ExpectFail" p.target = none from hnone .expectFail]
    rfl
  have hwords : ∀ w ∈ p.flags.map Flag.name ++ [p.target], w ≠ [] ∧ ∀ c ∈ w, isBlank c = false :=
    List.forall_mem_append.2 ⟨fun w hw => (hflags w hw).2,
      List.forall_mem_singleton.2 ⟨h.target_ne_nil, h.target_isBlank⟩⟩
  have hnone : (p.flags.map Flag.name).find? (!isFlag ·) = none :=
    List.find?_eq_none.2 fun w hw => by simp [(hflags w hw).1]
  rw [targetOf?_eq hk h.afterKeyword?_text (by rw [← List.flatMap_append]; exact head?_flatMap _),
    Text.words_flatMap_append hwords (head?_flatMap _), targetAmong?_eq, List.append_assoc,
    List.find?_append, hnone, Option.none_or, List.singleton_append,
    List.find?_cons_of_pos (by simp [htarget]), Option.some_or]

end Plain

/-- **What is read of a written command.** When no part of it holds a word that another part is
looked for by, reading the line gives the parts back: the keyword in any case, the target, the
clauses that are there and the flags. -/
theorem ofLine?_text (h : p.Plain k) (hk : k.hasTarget = true) (line : Nat) :
    ofLine? p.text line = some {
      keyword := k
      text := p.text
      line
      target := some p.target
      into := p.into
      using_ := p.dotted
      condition := p.condition
      catchesError := decide (.catchError ∈ p.flags)
      expectsFailure := decide (.expectFail ∈ p.flags)
      body := none } := by
  have hend : ∀ c ∈ ((p.flags.map Flag.name ++ [p.target]).flatMap (' ' :: ·) ++
      p.clauses.flatMap (' ' :: ·)).head?, isWord c = false := by
    rw [← List.flatMap_append]
    exact fun c hc => isWord_eq_false_of_isBlank (head?_flatMap _ c hc)
  have hcondition : ((p.condition.map Text.trim).filter (!·.isEmpty)) = p.condition := by
    cases hp : p.condition with
    | none => rfl
    | some t =>
      rw [Option.map_some, h.condition_trim t hp, Option.filter_some, if_pos]
      simpa using h.condition_ne_nil t hp
  have hfound : (Text.wholeWord "CatchError").found p.text = decide (.catchError ∈ p.flags) ∧
      (Text.wholeWord "ExpectFail").found p.text = decide (.expectFail ∈ p.flags) :=
    ⟨h.found_flag .catchError, h.found_flag .expectFail⟩
  rw [ofLine?_of_afterKeyword? h.afterKeyword?_text hend, h.target_text hk, h.into_text,
    h.using_text, h.condition_text, hcondition, hfound.1, hfound.2]

/-- A command with all of its parts. -/
theorem ofLine?_all_parts :
    let p : Phrase := {
      keyword := "pOST"
      flags := [.expectFail, .catchError, .expectFail]
      target := "/users?(name=\""
      condition := some "$[count] > 0 && in_to = \"\x7b\x7d\""
      using_ := some ["cfg", "höst"]
      into := some "reply_1" }
    ∃ c, ofLine? p.text 7 = some c ∧ c.keyword = .post ∧ c.target = some p.target ∧
      c.condition = p.condition ∧ c.using_ = some "cfg.höst".toList ∧ c.into = p.into ∧
        c.catchesError = true ∧ c.expectsFailure = true := by
  intro p
  have hplain : p.Plain .post :=
    { keyword_eq := by decide
      target_ne_nil := by decide
      target_isBlank := Text.forall_mem_of_all (by decide)
      condition_ne_nil := by decide
      condition_trim := by decide
      condition_newline := by decide
      using_ne_nil := by decide
      using_isName := by decide +kernel
      into_isName := by decide +kernel
      free := by decide +kernel }
  exact ⟨_, ofLine?_text hplain rfl 7, rfl, rfl, rfl, rfl, rfl, rfl, rfl⟩

end Phrase

end Command

end ScriptAudit
