import ScriptAudit.Proofs.Document.Phrase
import ScriptAudit.Proofs.Text.LineEnds

/-!
# Conditions

A condition begins behind the word `When` and ends in front of the next clause. It does so as soon
as a word begins with `Into` or `Using`, even if this word goes on and begins no clause at all. Main
statement: `Command.condition_of_when`, with the counterexample `Command.condition_cut_in_word` to
the rule that only the words `Into` and `Using` end a condition.

* `Text.upTo` — the part of a text up to the first place behind a blank with a given property.
* `Command.exists_conditionFrom?` — a condition goes up to the next word that begins like a clause.
* `Command.Conditional` — a line with a condition.
-/

namespace ScriptAudit

namespace Text

/-! ## Up to a word -/

/-- The text up to the first place behind a blank at which `p` holds, or all of it. -/
def upTo (p : Text → Bool) : Text → Text
  | [] => []
  | c :: cs => if isBlank c && p cs then [c] else c :: upTo p cs

section

variable {p q : Text → Bool}

/-- Either the text goes on with such a place, or it has come to its end. -/
theorem exists_upTo_append (p : Text → Bool) (t : Text) :
    ∃ rest, t = upTo p t ++ rest ∧
      (rest ≠ [] → ∃ u b, upTo p t = u ++ [b] ∧ isBlank b = true ∧ p rest = true) := by
  induction t with
  | nil => exact ⟨[], rfl, fun h => absurd rfl h⟩
  | cons c cs ih =>
    unfold upTo
    split
    · next h =>
      obtain ⟨hblank, hp⟩ := Bool.and_eq_true_iff.1 h
      exact ⟨cs, rfl, fun _ => ⟨[], c, rfl, hblank, hp⟩⟩
    · obtain ⟨rest, hrest, hstop⟩ := ih
      refine ⟨rest, by rw [List.cons_append, ← hrest], fun hne => ?_⟩
      obtain ⟨u, b, hu, hblank, hp⟩ := hstop hne
      exact ⟨c :: u, b, by rw [hu]; rfl, hblank, hp⟩

/-- It goes no further than to any such place. -/
theorem upTo_prefix_of_stop {u v : Text} {b : Char} (hb : isBlank b = true) (hv : p v = true) :
    upTo p (u ++ b :: v) <+: u ++ [b] := by
  induction u with
  | nil => simp [upTo, hb, hv]
  | cons c u ih =>
    rw [List.cons_append, upTo]
    split
    · exact ⟨u ++ [b], rfl⟩
    · exact List.cons_prefix_cons.2 ⟨rfl, ih⟩

/-- Where there are more places to end at, the text ends earlier. -/
theorem upTo_prefix_of_imp (h : ∀ t, q t = true → p t = true) (t : Text) : upTo p t <+: upTo q t := by
  obtain ⟨rest, hrest, hstop⟩ := exists_upTo_append q t
  by_cases hne : rest = []
  · obtain ⟨more, hmore, -⟩ := exists_upTo_append p t
    rw [hne, List.append_nil] at hrest
    exact ⟨more, by rw [← hmore, ← hrest]⟩
  · obtain ⟨u, b, hu, hb, hq⟩ := hstop hne
    have := upTo_prefix_of_stop (u := u) hb (h rest hq)
    rwa [List.append_cons, ← hu, ← hrest] at this

/-- In front of a run of blanks, what is left up to a place behind it is blank. -/
theorem blank_upTo {b : Char} (hb : isBlank b = true) {t : Text} (h : p (trimLeft t) = true) :
    blank (upTo p (b :: t)) = true := by
  induction t generalizing b with
  | nil => simp [upTo, blank, hb]
  | cons c cs ih =>
    unfold upTo
    split
    · simp [blank, hb]
    · next hstop =>
      by_cases hc : isBlank c = true
      · have hleft : trimLeft (c :: cs) = trimLeft cs := List.dropWhile_cons_of_pos hc
        rw [hleft] at h
        have := ih hc h
        simp only [blank, List.all_cons, Bool.and_eq_true] at this ⊢
        exact ⟨hb, this⟩
      · have hleft : trimLeft (c :: cs) = c :: cs := List.dropWhile_cons_of_neg hc
        rw [hleft] at h
        exact absurd (by simp [hb, h]) hstop

end

theorem trimRight_cons (c : Char) (t : Text) : trimRight (c :: t) = trimRight (c :: trimRight t) := by
  rcases blank_or_exists_append_cons t with h | ⟨u, a, b, rfl, ha, hb⟩
  · have hnil : trimRight t = [] := trimRight_append_of_forall h []
    rw [hnil]
    exact trimRight_append_of_forall h [c]
  · have hend : trimRight b = [] := trimRight_append_of_forall hb []
    rw [trimRight_append_cons ha, ← List.cons_append, trimRight_append_cons ha, hend,
      ← List.cons_append, trimRight_append_cons ha]
    rfl

theorem trim_cons {c : Char} (hc : isBlank c = false) (t : Text) : trim (c :: t) = c :: trimRight t := by
  have hleft : trimLeft (c :: t) = c :: t := trimLeft_eq_self fun d hd => Option.some.inj hd ▸ hc
  rw [trim, hleft]
  exact trimRight_append_cons hc [] t

theorem length_trim_le (t : Text) : (trim t).length ≤ t.length := by
  have hright : ∀ s : Text, (trimRight s).length ≤ s.length := by
    intro s
    have hle := (List.dropWhile_suffix isBlank (l := s.reverse)).length_le
    rw [List.length_reverse] at hle
    unfold trimRight
    rwa [List.length_reverse]
  exact (hright _).trans (List.dropWhile_suffix _).length_le

/-- Trimming keeps what stands in front of a character that is not blank. -/
theorem length_lt_trim {u v : Text} {d : Char} (hd : isBlank d = false)
    (hhead : ∀ c ∈ (u ++ d :: v).head?, isBlank c = false) :
    u.length < (trim (u ++ d :: v)).length := by
  rw [trim, trimLeft_eq_self hhead, trimRight_append_cons hd]
  simp

end Text

namespace Command

/-! ## The ends of conditions -/

/-- Whether a text begins with `Into` or `Using`, be it as a word or not. -/
def beginsClause (t : Text) : Bool :=
  (Text.afterKeyword? "Into" t).isSome || (Text.afterKeyword? "Using" t).isSome

/-- Whether a text begins with the word `Into` or the word `Using`. -/
def opensClause (t : Text) : Bool :=
  (Text.wholeWord "Into" none t).isSome || (Text.wholeWord "Using" none t).isSome

theorem beginsClause_of_opensClause {t : Text} (h : opensClause t = true) :
    beginsClause t = true := by
  have hword : ∀ keyword : Text, (Text.wholeWord keyword none t).isSome = true →
      (Text.afterKeyword? keyword t).isSome = true := by
    intro keyword h
    cases hread : Text.afterKeyword? keyword t with
    | none =>
      rw [Recogniser.seeks_wholeWord keyword none t hread] at h
      cases h
    | some rest => rfl
  rw [opensClause, Bool.or_eq_true] at h
  rw [beginsClause, Bool.or_eq_true]
  exact h.imp (hword _) (hword _)

/-- A clause does not begin with a blank. -/
theorem isBlank_eq_false_of_beginsClause {c : Char} {t : Text} (h : beginsClause (c :: t) = true) :
    isBlank c = false := by
  have hletter : ∀ k ks, (foldLetter k).isAlpha = true →
      (Text.afterKeyword? (k :: ks) (c :: t)).isSome = true → isBlank c = false := by
    intro k ks hk hsome
    rw [← Bool.not_eq_true]
    intro hc
    have hfold : foldLetter k ≠ foldLetter c := by
      intro heq
      rw [heq, isAlpha_foldLetter_of_isBlank hc] at hk
      cases hk
    rw [Text.afterKeyword?, if_neg hfold] at hsome
    cases hsome
  rw [beginsClause, Bool.or_eq_true] at h
  exact h.elim (hletter 'I' _ (by decide)) (hletter 'U' _ (by decide))

theorem trimLeft_of_beginsClause {t : Text} (h : beginsClause t = true) : Text.trimLeft t = t := by
  refine Text.trimLeft_eq_self fun c hc => ?_
  obtain ⟨cs, rfl⟩ := List.head?_eq_some_iff.1 hc
  exact isBlank_eq_false_of_beginsClause h

/-- What stands behind a text is not needed to see that a clause begins in front. -/
theorem beginsClause_append {t : Text} (h : beginsClause t = true) (s : Text) :
    beginsClause (t ++ s) = true := by
  have hread : ∀ keyword : Text, (Text.afterKeyword? keyword t).isSome = true →
      (Text.afterKeyword? keyword (t ++ s)).isSome = true := by
    intro keyword h
    obtain ⟨rest, hrest⟩ := Option.isSome_iff_exists.1 h
    obtain ⟨word, rfl, hword⟩ := Text.afterKeyword?_eq_some.1 hrest
    rw [Text.afterKeyword?_eq_some.2 ⟨word, List.append_assoc _ _ _, hword⟩]
    rfl
  rw [beginsClause, Bool.or_eq_true] at h ⊢
  exact h.imp (hread _) (hread _)

/-- No clause begins with a word that goes on behind a blank. -/
theorem beginsClause_of_append {t s : Text} {b : Char} (hlast : t.getLast? = some b)
    (hb : isBlank b = true) (h : beginsClause (t ++ s) = true) : beginsClause t = true := by
  have hread : ∀ keyword : Text, keyword.all (fun k => (foldLetter k).isAlpha) = true →
      (Text.afterKeyword? keyword (t ++ s)).isSome = (Text.afterKeyword? keyword t).isSome := by
    intro keyword hletters
    rw [Text.afterKeyword?_append_of_getLast?
      (Text.foldLetter_ne_of_isAlpha (List.all_eq_true.1 hletters) (isAlpha_foldLetter_of_isBlank hb))
      hlast, Option.isSome_map]
  rwa [beginsClause, hread _ (by decide), hread _ (by decide)] at h

/-- Where a condition may end in a line. -/
theorem endsCondition_cons {c : Char} {cs : Text} (hc : c ≠ '\n') :
    endsCondition (c :: cs) = (isBlank c && beginsClause (Text.trimLeft cs)) := by
  have hfeed : (c :: cs == ['\n']) = false := by simp [hc]
  rw [endsCondition, hfeed]
  by_cases hblank : isBlank c = true
  · have hleft : Text.trimLeft (c :: cs) = Text.trimLeft cs := List.dropWhile_cons_of_pos hblank
    have hlt : (Text.trimLeft cs).length < (c :: cs).length :=
      Nat.lt_succ_of_le (List.dropWhile_suffix _).length_le
    simp only [hleft, hlt, hblank, beginsClause]
    simp
  · have hleft : Text.trimLeft (c :: cs) = c :: cs := List.dropWhile_cons_of_neg hblank
    simp only [hleft, lt_self_iff_false, hblank]
    simp

/-- **The end of a condition.** Apart from blanks at its end, a condition goes up to the first word
behind a blank that begins with `Into` or `Using`. -/
theorem exists_conditionFrom? {c : Char} (hc : c ≠ '\n') {cs : Text} (hcs : '\n' ∉ cs) :
    ∃ w, conditionFrom? (c :: cs) = some (c :: w) ∧
      Text.trimRight w = Text.trimRight (Text.upTo beginsClause cs) := by
  induction cs generalizing c with
  | nil => exact ⟨[], by rw [conditionFrom?, if_neg hc]; rfl, rfl⟩
  | cons d ds ih =>
    rw [List.mem_cons, not_or] at hcs
    have hd : d ≠ '\n' := Ne.symm hcs.1
    rw [conditionFrom?, if_neg hc, endsCondition_cons hd]
    by_cases hend : (isBlank d && beginsClause (Text.trimLeft ds)) = true
    · obtain ⟨hblank, hclause⟩ := Bool.and_eq_true_iff.1 hend
      refine ⟨[], by rw [if_pos hend], ?_⟩
      rw [Text.trimRight_of_blank (Text.blank_upTo hblank hclause)]
      rfl
    · obtain ⟨w, hw, htrim⟩ := ih hd hcs.2
      have hgo : Text.upTo beginsClause (d :: ds) = d :: Text.upTo beginsClause ds := by
        rw [Text.upTo, if_neg]
        intro hstop
        obtain ⟨hblank, hclause⟩ := Bool.and_eq_true_iff.1 hstop
        rw [trimLeft_of_beginsClause hclause, hblank, hclause] at hend
        exact hend rfl
      refine ⟨d :: w, by rw [if_neg hend, hw]; rfl, ?_⟩
      rw [hgo, Text.trimRight_cons, htrim, ← Text.trimRight_cons]

/-! ## Lines with a condition -/

/-- Whether the word `When` and a blank stand at the beginning of a text. -/
def StartsCondition (before : Option Char) (t : Text) : Prop :=
  Text.wordStarts before = true ∧
    ∃ rest, Text.afterKeyword? "When" t = some rest ∧ rest.head?.any isBlank = true

instance (before : Option Char) (t : Text) : Decidable (StartsCondition before t) :=
  decidable_of_iff
    (Text.wordStarts before = true ∧ ((Text.afterKeyword? "When" t).any (·.head?.any isBlank)) = true)
    (by simp only [StartsCondition, Option.any_eq_true])

/-- A line that holds the word `When`, blanks and a text, which is `rest`. It is cut in front of the
first `When` with blanks behind it. -/
structure Conditional (front back rest : Text) : Prop where
  starts : StartsCondition front.getLast? back
  first : ∀ i < front.length, ¬ StartsCondition (front.take i).getLast? (front.drop i ++ back)
  behind : (Text.afterKeyword? "When" back).map Text.trimLeft = some rest
  rest_ne_nil : rest ≠ []
  newline : '\n' ∉ rest

theorem whenClause_of_not_startsCondition {before : Option Char} {t : Text}
    (h : ¬ StartsCondition before t) : whenClause before t = none := by
  rw [whenClause_eq]
  split
  · next hstart =>
    cases hread : Text.afterKeyword? "When" t with
    | none => rfl
    | some rest =>
      have hblank : rest.head?.any isBlank = false := by
        rw [← Bool.not_eq_true]
        exact fun hblank => h ⟨hstart, rest, hread, hblank⟩
      cases rest with
      | nil => rfl
      | cons c rest =>
        have hnone : (c :: rest).takeWhile isBlank = [] :=
          List.takeWhile_cons_of_neg (by simpa using hblank)
        simp only [hnone, conditionAfter?, Option.map_none]
  · rfl

/-- All blanks behind `When` are left out if there is a condition then. -/
theorem conditionAfter?_eq {blanks rest u : Text} (hblanks : blanks ≠ [])
    (h : conditionFrom? rest = some u) : conditionAfter? blanks rest = some u := by
  induction blanks with
  | nil => exact absurd rfl hblanks
  | cons b bs ih =>
    cases bs with
    | nil => exact h
    | cons b' bs =>
      rw [conditionAfter?, ih (List.cons_ne_nil b' bs)]
      rfl

/-- The condition of a command is what is found first, without margins, unless nothing is left. -/
theorem condition_of_ofLine? {t : Text} {line : Nat} {c : Command} (h : ofLine? t line = some c) :
    c.condition = ((whenClause.first? t).map Text.trim).filter (!·.isEmpty) := by
  rw [ofLine?] at h
  obtain ⟨k, -, h⟩ := Option.bind_eq_some_iff.1 h
  obtain rfl := Option.some.inj h
  rfl

namespace Conditional

variable {front back rest : Text} (h : Conditional front back rest)
include h

theorem first?_whenClause {u : Text} (hu : conditionFrom? rest = some u) :
    whenClause.first? (front ++ back) = some u := by
  have hpass : ∀ x y, front = x ++ y → y ≠ [] →
      whenClause (x.getLast?.or none) (y ++ back) = none := by
    intro x y hxy hy
    have hfirst := h.first x.length (by simp [hxy, List.length_pos_iff.2 hy])
    rw [hxy, List.take_left, List.drop_left] at hfirst
    rw [Option.or_none]
    exact whenClause_of_not_startsCondition hfirst
  obtain ⟨hstart, behind, hread, hblank⟩ := h.starts
  have hleft : behind.dropWhile isBlank = rest := by
    have := h.behind
    rw [hread] at this
    exact Option.some.inj this
  have hblanks : behind.takeWhile isBlank ≠ [] := by
    intro hnil
    cases behind with
    | nil => cases hblank
    | cons c behind =>
      rw [List.takeWhile_cons_of_pos (by simpa using hblank)] at hnil
      cases hnil
  have hfound : whenClause front.getLast? back = some (u, 4) := by
    rw [whenClause_eq, if_pos hstart, hread]
    simp only [hleft, conditionAfter?_eq hblanks hu, Option.map_some]
  rw [Recogniser.first?, Recogniser.search_append _ hpass, Option.or_none]
  cases back with
  | nil =>
    rw [Text.afterKeyword?.eq_def] at hread
    cases hread
  | cons c cs =>
    rw [Recogniser.search, hfound]

theorem isBlank_head {c : Char} (hc : c ∈ rest.head?) : isBlank c = false := by
  obtain ⟨behind, -, hleft⟩ := Option.map_eq_some_iff.1 h.behind
  rw [← hleft] at hc
  exact Text.isBlank_head_dropWhile hc

end Conditional

/-- A condition ends as it should unless a word in front of its end begins like a clause. -/
theorem trim_upTo_eq_iff {rest : Text} (hhead : ∀ c ∈ rest.head?, isBlank c = false) :
    Text.trim (Text.upTo beginsClause rest) = Text.trim (Text.upTo opensClause rest) ↔
      ∀ u b v, Text.upTo opensClause rest = u ++ b :: v → isBlank b = true →
        beginsClause v = false := by
  obtain ⟨more, hmore, hend⟩ := Text.exists_upTo_append opensClause rest
  constructor
  · intro heq u b v hv hb
    rw [← Bool.not_eq_true]
    intro hclause
    obtain ⟨d, v, rfl⟩ : ∃ d v', v = d :: v' := by
      cases v with
      | nil => cases hclause
      | cons d v => exact ⟨d, v, rfl⟩
    -- the condition is cut off in front of the word, which belongs to the longer one
    have hshort : (Text.upTo beginsClause rest).length ≤ (u ++ [b]).length := by
      rw [hmore, hv, List.append_assoc, List.cons_append]
      exact (Text.upTo_prefix_of_stop hb (beginsClause_append hclause more)).length_le
    have hlong : (u ++ [b]).length < (Text.trim (Text.upTo opensClause rest)).length := by
      rw [hv, List.append_cons u b (d :: v)]
      refine Text.length_lt_trim (isBlank_eq_false_of_beginsClause hclause) fun c hc => hhead c ?_
      rw [hmore, hv, List.append_cons u b (d :: v), List.head?_append_of_ne_nil _ (by simp)]
      exact hc
    have := Text.length_trim_le (Text.upTo beginsClause rest)
    rw [heq] at this
    omega
  · intro hnone
    obtain ⟨x, hx⟩ := Text.upTo_prefix_of_imp (fun _ => beginsClause_of_opensClause) rest
    obtain ⟨y, hy, hstop⟩ := Text.exists_upTo_append beginsClause rest
    obtain rfl : y = x ++ more := by
      rw [← List.append_cancel_left_eq (Text.upTo beginsClause rest), ← hy, ← List.append_assoc, hx]
      exact hmore
    by_cases hne : x = []
    · rw [← hx, hne, List.append_nil]
    · exfalso
      obtain ⟨u, b, hu, hb, hclause⟩ := hstop (List.append_ne_nil_of_left_ne_nil hne more)
      have hfalse : beginsClause x = false := by
        refine hnone u b x ?_ hb
        rw [← hx, hu, List.append_assoc]
        rfl
      -- the word does not go on behind the end, where there is a blank
      by_cases hmore' : more = []
      · rw [hmore', List.append_nil, hfalse] at hclause
        cases hclause
      · obtain ⟨w, a, hw, ha, -⟩ := hend hmore'
        have hlast : x.getLast? = some a := by
          have := congrArg List.getLast? (hx.trans hw)
          rwa [List.getLast?_append_of_ne_nil _ hne, List.getLast?_append_of_ne_nil _ (by simp)] at this
        rw [beginsClause_of_append hlast ha hclause] at hfalse
        cases hfalse

/-- **The condition of a command.** Behind the first word `When` that has blanks behind it, the
condition goes up to the first word behind a blank that begins with `Into` or `Using`. It goes up to
the first one that is `Into` or `Using`, as it should, exactly if no word in front of this one begins
so. -/
theorem condition_of_when {front back rest : Text} (h : Conditional front back rest) {line : Nat}
    {c : Command} (hc : ofLine? (front ++ back) line = some c) :
    c.condition = some (Text.trim (Text.upTo beginsClause rest)) ∧
      (c.condition = some (Text.trim (Text.upTo opensClause rest)) ↔
        ∀ u b v, Text.upTo opensClause rest = u ++ b :: v → isBlank b = true →
          beginsClause v = false) := by
  have hcondition : c.condition = some (Text.trim (Text.upTo beginsClause rest)) := by
    obtain ⟨d, ds, rfl⟩ := List.exists_cons_of_ne_nil h.rest_ne_nil
    have hd : isBlank d = false := h.isBlank_head rfl
    have hnewline := h.newline
    rw [List.mem_cons, not_or] at hnewline
    obtain ⟨w, hw, htrim⟩ := exists_conditionFrom? (Ne.symm hnewline.1) hnewline.2
    rw [condition_of_ofLine? hc, h.first?_whenClause hw, Option.map_some, Text.upTo, hd,
      Bool.false_and, if_neg Bool.false_ne_true, Text.trim_cons hd, Text.trim_cons hd, htrim]
    rfl
  refine ⟨hcondition, ?_⟩
  rw [hcondition, Option.some.injEq]
  exact trim_upTo_eq_iff fun c hc => h.isBlank_head hc

/-- Here it is a word that merely begins with `Using` which ends the condition. -/
theorem condition_of_when_longer_word :
    ∃ c, ofLine? "Post WhenX/a wHEN  $n in to UsingX, or INTO reply" 3 = some c ∧
      c.condition = some "$n in to".toList ∧
      c.condition ≠ some "$n in to UsingX, or".toList := by
  have h : Conditional "Post WhenX/a " "wHEN  $n in to UsingX, or INTO reply"
      "$n in to UsingX, or INTO reply" :=
    { starts := by decide
      first := by decide
      behind := by decide
      rest_ne_nil := by decide
      newline := by decide }
  have hread : Text.afterKeyword? Keyword.post.name
      ("Post WhenX/a " ++ "wHEN  $n in to UsingX, or INTO reply") =
      some " WhenX/a wHEN  $n in to UsingX, or INTO reply" := rfl
  have hline : ∃ c, ofLine? ("Post WhenX/a " ++ "wHEN  $n in to UsingX, or INTO reply") 3 = some c := by
    refine ⟨_, ofLine?_of_afterKeyword? hread (fun c hc => ?_) 3⟩
    obtain rfl := Option.some.inj hc
    rfl
  obtain ⟨c, hc⟩ := hline
  obtain ⟨hcondition, -⟩ := condition_of_when h hc
  have hcut : Text.trim (Text.upTo beginsClause "$n in to UsingX, or INTO reply") =
      "$n in to".toList := by decide
  rw [hcut] at hcondition
  exact ⟨c, hc, hcondition, by rw [hcondition]; decide⟩

/-- No word of this line is `Into` or `Using`, and yet the condition is not all of it. -/
theorem condition_cut_in_word :
    Conditional "Get /a " "When x Intolerance y" "x Intolerance y" ∧
      Text.upTo opensClause "x Intolerance y" = "x Intolerance y".toList ∧
      ∃ c, ofLine? "Get /a When x Intolerance y" 1 = some c ∧ c.condition = some "x".toList := by
  have hread : Text.afterKeyword? Keyword.get.name "Get /a When x Intolerance y" =
      some " /a When x Intolerance y" := rfl
  refine ⟨?_, by decide, _, ofLine?_of_afterKeyword? hread (fun c hc => ?_) 1, by decide⟩
  · exact
      { starts := by decide
        first := by decide
        behind := by decide
        rest_ne_nil := by decide
        newline := by decide }
  · obtain rfl := Option.some.inj hc
    rfl

end Command

end ScriptAudit
