import ScriptAudit.Check.Review
import ScriptAudit.Output.Remedy
import ScriptAudit.Proofs.Redaction.Finds
import ScriptAudit.Yaml.Standard

/-!
# No value of a secret is left

In a masked text, `?` or `&`, the name of a secret and an equals sign are followed by the asterisks
and nothing else up to the end of the value (`ParametersMasked`), and so is the word `password=`
(`ArgumentsMasked`). Masking parameters brings about the first, and masking arguments, which comes
later, brings about the second and keeps the first. Main statement: `masked_everywhere`, for every
text and for every string of the reviews.
-/

namespace ScriptAudit

namespace Json

mutual

/-- The strings of a value, at any depth; the keys of objects do not count. -/
def strings : Json → List Text
  | .str t => [t]
  | .arr vs => itemStrings vs
  | .obj fs => fieldStrings fs
  | .null => []
  | .bool _ => []
  | .num _ => []

/-- The strings of items. -/
def itemStrings : List Json → List Text
  | [] => []
  | v :: vs => strings v ++ itemStrings vs

/-- The strings of the values of fields. -/
def fieldStrings : List (Text × Json) → List Text
  | [] => []
  | (_, v) :: fs => strings v ++ fieldStrings fs

end

end Json

namespace Redaction

/-! ## What a masked text is like -/

/-- Each parameter that holds a secret has asterisks as its value. -/
def ParametersMasked (t : Text) : Prop :=
  ∀ front mark name after, t = front ++ mark :: (name ++ '=' :: after) →
    mark = '?' ∨ mark = '&' → IsSecretName name →
      ∃ rest, after = asterisks ++ rest ∧ ∀ c ∈ rest.head?, EndsValue c

/-- The words `password=` in a text that follows the character `before` have asterisks as their
value, or none. -/
def ArgumentsMaskedFrom (before : Option Char) (t : Text) : Prop :=
  ∀ front word after, t = front ++ (word ++ '=' :: after) → IsPasswordWord word →
    (front.getLast?.or before).any isWord = false →
      (∀ c ∈ after.head?, isBlank c = true) ∨
        ∃ rest, after = asterisks ++ rest ∧ ∀ c ∈ rest.head?, isBlank c = true

/-- The words `password=` of a text have asterisks as their value, or none. -/
def ArgumentsMasked (t : Text) : Prop := ArgumentsMaskedFrom none t

/-- A text in which no value of a secret is left. -/
structure Masked (t : Text) : Prop where
  parameters : ParametersMasked t
  arguments : ArgumentsMasked t

theorem ParametersMasked.of_append {u v : Text} (h : ParametersMasked (u ++ v)) :
    ParametersMasked v := by
  rintro front mark name after rfl
  exact h (u ++ front) mark name after (by simp)

/-! ## Masking parameters -/

/-- A name in the output of masking parameters was there before. -/
theorem copied_name {before : Option Char} {t name after : Text} (hname : IsSecretName name)
    (h : Recogniser.Replaces parameter before t (name ++ '=' :: after)) :
    ∃ s, t = name ++ '=' :: s := by
  obtain ⟨s, rfl, hs⟩ := h.copied begins_parameter fun x d y hsplit =>
    not_mark_of_mem hname (by rw [hsplit]; simp)
  obtain ⟨s, rfl, -⟩ := hs.copied_cons begins_parameter (by decide)
  exact ⟨s, rfl⟩

/-- Where parameters are masked, each of them has asterisks as its value. -/
theorem parametersMasked_of_replaces {before : Option Char} {t out : Text}
    (h : Recogniser.Replaces parameter before t out) : ParametersMasked out := by
  induction h with
  | done => rintro (_ | ⟨_, _⟩) mark name after heq <;> cases heq
  | @keep before c cs out hnone hrest ih =>
    intro front mark name after heq hmark hname
    cases front with
    | cons d front => exact ih front mark name after (List.cons.inj heq).2 hmark hname
    | nil =>
      obtain ⟨rfl, rfl⟩ := List.cons.inj heq
      obtain ⟨s, rfl⟩ := copied_name hname hrest
      -- here the parameter would have been found
      have hfound := @parameter_isSome before _ _ s hmark hname
      rw [hnone] at hfound
      exact absurd hfound Bool.false_ne_true
  | @put before c find t new out hfound hrest ih =>
    obtain ⟨find', mark', name', value, rest, heq, hfind, hends, rfl, hlength⟩ :=
      parameter_eq_some hfound
    obtain ⟨-, rfl⟩ := List.append_inj heq (by simpa using hlength)
    have hhead := hrest.head?_eq begins_parameter
    intro front mark name after hout hmark hname
    rcases Text.append_eq_append_cons hout with ⟨right, hnew, hright⟩ | ⟨left, -, hleft⟩
    · cases front with
      | nil =>
        obtain ⟨rfl, rfl⟩ := List.cons.inj hnew
        rw [List.append_assoc, List.cons_append] at hright
        obtain ⟨rfl, rfl⟩ := Text.eq_of_append_cons_eq (ne_equals_of_isSecretName hname)
          (ne_equals_of_isSecretName hfind.isSecretName) hright
        exact ⟨out, rfl, by rwa [hhead]⟩
      | cons d front =>
        have hmem : mark ∈ name' ++ '=' :: asterisks := (List.cons.inj hnew).2 ▸ by simp
        exact absurd hmark (not_mark_of_mem hfind.isSecretName hmem)
    · exact ih left mark name after hleft hmark hname

/-! ## Masking arguments -/

/-- No find begins inside of a word. -/
theorem copied_word {c : Char} {t word after : Text} (hc : isWord c = true)
    (hword : ∀ d ∈ word, isWord d = true)
    (h : Recogniser.Replaces argument (some c) t (word ++ '=' :: after)) :
    ∃ s, t = word ++ '=' :: s ∧ Recogniser.Replaces argument (some '=') s after := by
  obtain ⟨s, rfl, hs⟩ := h.copied begins_argument fun x d y hsplit hbegins => by
    have hbefore : (x.getLast?.or (some c)).any isWord = true := by
      cases hlast : x.getLast? with
      | none => simpa using hc
      | some e =>
        have he : e ∈ word := hsplit ▸ List.mem_append_left _ (List.mem_of_getLast? hlast)
        simpa using hword e he
    rw [hbegins.1] at hbefore
    exact absurd hbefore Bool.false_ne_true
  obtain ⟨s', rfl, hs'⟩ := hs.copied_cons begins_argument fun hbegins => absurd hbegins.2 (by decide)
  exact ⟨s', rfl, hs'⟩

/-- Asterisks stay when arguments are masked. -/
theorem kept_asterisks {before : Option Char} {rest out : Text}
    (h : Recogniser.Replaces argument before (asterisks ++ rest) out) :
    ∃ rest', out = asterisks ++ rest' ∧ rest'.head? = rest.head? := by
  have hasterisks : ∀ c ∈ asterisks, foldLetter c ≠ 'p' := Text.forall_mem_of_all (by decide)
  obtain ⟨rest', rfl, hrest⟩ := h.kept begins_argument fun x d y hsplit hbegins =>
    hasterisks d (hsplit ▸ by simp) hbegins.2
  exact ⟨rest', rfl, hrest.head?_eq begins_argument⟩

/-- What is put in place of an argument begins no parameter. -/
theorem not_mark_of_mem_maskedArgument {word : Text} (h : IsPasswordWord word) {c : Char}
    (hc : c ∈ maskedArgument word) : ¬ (c = '?' ∨ c = '&') :=
  not_mark_of_mem (isSecretName_of_isPasswordWord h) hc

/-- What stands behind a name is a mask, of a parameter or of an argument. -/
theorem exists_asterisks_of_replaces {before : Option Char} {t name after : Text}
    (hname : IsSecretName name)
    (h : Recogniser.Replaces argument before t (name ++ '=' :: after))
    (ht : ∀ s, t = name ++ '=' :: s → ∃ rest, s = asterisks ++ rest ∧ ∀ c ∈ rest.head?, EndsValue c) :
    ∃ rest, after = asterisks ++ rest ∧ ∀ c ∈ rest.head?, EndsValue c := by
  have hword := isWord_of_isSecretName hname
  have hne := ne_equals_of_isSecretName hname
  generalize hout : name ++ '=' :: after = out at h
  cases h with
  | done => simp at hout
  | @keep _ n cs out _ hrest =>
    -- the name stays, for what begins in it would follow a letter
    obtain ⟨d, tail, rfl⟩ := List.exists_cons_of_ne_nil (ne_nil_of_isSecretName hname)
    obtain ⟨rfl, rfl⟩ := List.cons.inj hout
    obtain ⟨s, rfl, hs⟩ := copied_word (hword d List.mem_cons_self)
      (fun c hc => hword c (List.mem_cons_of_mem d hc)) hrest
    obtain ⟨rest, rfl, hends⟩ := ht s rfl
    obtain ⟨rest', rfl, hhead⟩ := kept_asterisks hs
    exact ⟨rest', rfl, by rwa [hhead]⟩
  | put hfound hrest =>
    obtain ⟨-, find, word, value, rest, heq, hfind, hends, rfl, hlength⟩ := argument_eq_some hfound
    obtain ⟨-, rfl⟩ := List.append_inj heq hlength
    rw [maskedArgument, List.append_assoc, List.cons_append] at hout
    obtain ⟨-, rfl⟩ := Text.eq_of_append_cons_eq hne
      (ne_equals_of_isSecretName (isSecretName_of_isPasswordWord hfind.isPasswordWord)) hout
    exact ⟨_, rfl, fun c hc => Or.inr (hends c (hrest.head?_eq begins_argument ▸ hc))⟩

/-- Masking arguments keeps the masks of parameters. -/
theorem ParametersMasked.of_replaces {before : Option Char} {t out : Text}
    (h : Recogniser.Replaces argument before t out) (ht : ParametersMasked t) :
    ParametersMasked out := by
  induction h with
  | done => exact ht
  | @keep before c cs out hnone hrest ih =>
    intro front mark name after heq hmark hname
    cases front with
    | cons d front =>
      exact ih (ht.of_append (u := [c])) front mark name after (List.cons.inj heq).2 hmark hname
    | nil =>
      obtain ⟨rfl, rfl⟩ := List.cons.inj heq
      exact exists_asterisks_of_replaces hname hrest fun s hs =>
        ht [] c name s (by rw [hs]; rfl) hmark hname
  | @put before c find t new out hfound hrest ih =>
    obtain ⟨-, find', word, value, rest, -, hfind, -, rfl, -⟩ := argument_eq_some hfound
    intro front mark name after hout hmark hname
    rcases Text.append_eq_append_cons hout with ⟨right, hnew, -⟩ | ⟨left, -, hleft⟩
    · exact absurd hmark
        (not_mark_of_mem_maskedArgument hfind.isPasswordWord (by rw [hnew]; simp))
    · exact ih ht.of_append left mark name after hleft hmark hname

/-- Where arguments are masked, each of them has asterisks as its value. The character before the
output is the one before the text, unless no word can begin there. -/
theorem argumentsMaskedFrom_of_replaces {before last : Option Char} {t out : Text}
    (h : Recogniser.Replaces argument before t out)
    (hlast : last = before ∨ ∀ c ∈ t.head?, isBlank c = true) : ArgumentsMaskedFrom last out := by
  induction h generalizing last with
  | done =>
    intro front word after heq hword
    obtain ⟨c, tail, rfl, -⟩ := hword.exists_cons
    simp at heq
  | @keep before c cs out hnone hrest ih =>
    intro front word after heq hword hbefore
    cases front with
    | cons d front =>
      obtain ⟨rfl, rfl⟩ := List.cons.inj heq
      rw [Recogniser.getLast?_cons_or] at hbefore
      exact ih (Or.inl rfl) front word after rfl hword hbefore
    | nil =>
      have hisWord := isWord_of_isSecretName (isSecretName_of_isPasswordWord hword)
      obtain ⟨p, tail, rfl, -⟩ := hword.exists_cons
      obtain ⟨rfl, rfl⟩ := List.cons.inj heq
      have hc : isWord c = true := hisWord c List.mem_cons_self
      obtain rfl : last = before := hlast.resolve_right fun hblank => by
        rw [isWord_eq_false_of_isBlank (hblank c rfl)] at hc
        exact absurd hc Bool.false_ne_true
      obtain ⟨s, rfl, hs⟩ := copied_word hc (fun d hd => hisWord d (List.mem_cons_of_mem c hd)) hrest
      left
      rw [hs.head?_eq begins_argument]
      exact isBlank_of_argument_eq_none hbefore hword hnone
  | @put before c find t new out hfound hrest ih =>
    obtain ⟨-, find', word', value, rest, heq, hfind, hends, rfl, hlength⟩ :=
      argument_eq_some hfound
    obtain ⟨-, rfl⟩ := List.append_inj heq (by simpa using hlength)
    intro front word after hout hword hbefore
    obtain ⟨p, tail, hcons, hp, -⟩ := hword.exists_cons
    have hout' : maskedArgument word' ++ out = front ++ p :: (tail ++ '=' :: after) := by
      rw [hout, hcons]
      rfl
    rcases Text.append_eq_append_cons hout' with ⟨right, hnew, -⟩ | ⟨left, rfl, hleft⟩
    · cases front with
      | nil =>
        rw [maskedArgument, List.append_assoc, List.cons_append, List.nil_append] at hout
        obtain ⟨-, rfl⟩ := Text.eq_of_append_cons_eq
          (ne_equals_of_isSecretName (isSecretName_of_isPasswordWord hfind.isPasswordWord))
          (ne_equals_of_isSecretName (isSecretName_of_isPasswordWord hword)) hout
        exact Or.inr ⟨out, rfl, by rwa [hrest.head?_eq begins_argument]⟩
      | cons d front =>
        obtain ⟨p', tail', rfl, -, htail'⟩ := hfind.isPasswordWord.exists_cons
        have htail : tail' ++ '=' :: asterisks = front ++ p :: right := (List.cons.inj hnew).2
        exact absurd hp (htail' p (by rw [htail]; simp))
    · refine @ih (some '*') (Or.inr hends) left word after (by rw [hleft, hcons]; rfl) hword ?_
      have hstar : (maskedArgument word').getLast? = some '*' := by
        rw [maskedArgument, List.getLast?_append]
        rfl
      rw [List.getLast?_append, hstar, Option.or_assoc] at hbefore
      exact hbefore

/-! ## Masked texts and masked values -/

/-- What masking leaves holds no value of a secret. -/
theorem masked_mask (t : Text) : Masked (mask t) where
  parameters :=
    ParametersMasked.of_replaces (Recogniser.replaces_substitute progresses_argument none _)
      (parametersMasked_of_replaces (Recogniser.replaces_substitute progresses_parameter none _))
  arguments :=
    argumentsMaskedFrom_of_replaces (Recogniser.replaces_substitute progresses_argument none _)
      (Or.inl rfl)

mutual

/-- Masking a value masks each of its strings. -/
theorem strings_maskAll : ∀ v, (maskAll v).strings = v.strings.map mask
  | .str _ => rfl
  | .arr vs => itemStrings_maskItems vs
  | .obj fs => fieldStrings_maskFields fs
  | .null => rfl
  | .bool _ => rfl
  | .num _ => rfl

theorem itemStrings_maskItems :
    ∀ vs, Json.itemStrings (maskItems vs) = (Json.itemStrings vs).map mask
  | [] => rfl
  | v :: vs => by
    rw [maskItems, Json.itemStrings, Json.itemStrings, strings_maskAll v, itemStrings_maskItems vs,
      List.map_append]

theorem fieldStrings_maskFields :
    ∀ fs, Json.fieldStrings (maskFields fs) = (Json.fieldStrings fs).map mask
  | [] => rfl
  | (_, v) :: fs => by
    rw [maskFields, Json.fieldStrings, Json.fieldStrings, strings_maskAll v,
      fieldStrings_maskFields fs, List.map_append]

end

theorem masked_of_mem_strings {s : Text} {v : Json} (h : s ∈ (maskAll v).strings) : Masked s := by
  rw [strings_maskAll, List.mem_map] at h
  obtain ⟨t, -, rfl⟩ := h
  exact masked_mask t

theorem exists_eq_ok {ε α : Type} {e : Except ε α} {p : α → Bool}
    (h : e.toOption.any p = true) : ∃ a, e = .ok a ∧ p a = true := by
  cases e with
  | error => simp [Except.toOption] at h
  | ok a => exact ⟨a, rfl, h⟩

/-- **No value of a secret is left.** It is masked in every text, and so it is in each string, at
any depth, of the review of a document, of its phases and of its commands, and of the output of the
interpreter, whatever the text was. -/
theorem masked_everywhere [Yaml.Loader] :
    (∀ t, Masked (mask t)) ∧
      (∀ strict filename t r, Review.ofText strict t = .ok r →
        ∀ s ∈ (r.json filename).strings, Masked s) ∧
      (∀ t r, PhaseReview.ofText t = .ok r → ∀ s ∈ r.json.strings, Masked s) ∧
      (∀ t r, CommandReview.ofText t = .ok r → ∀ s ∈ r.json.strings, Masked s) ∧
      ∀ t r, OutputReview.ofText t = .ok r → ∀ s ∈ r.json.strings, Masked s := by
  refine ⟨masked_mask, fun strict filename t r _ s hs => ?_,
    fun t r _ s hs => masked_of_mem_strings hs, fun t r _ s hs => masked_of_mem_strings hs,
    fun t r _ s hs => masked_of_mem_strings hs⟩
  rw [Review.json, Review.fields, ← maskAll] at hs
  exact masked_of_mem_strings hs

/-- A call with a token in its address. -/
def tokenScript : Text := "## Act\n```\nGet //h?token=abc Into Name\n```\n"

/-- The token is masked in the context of an issue, in the call of a section, and in the target of a
command, and a password in the message of an error. -/
theorem masked_everywhere_token :
    (∃ r, Review.ofText true tokenScript = .ok r ∧
      "Get //h?token=**** Into Name".toList ∈ (r.json none).strings ∧
        ∀ s ∈ (r.json none).strings, Masked s) ∧
    (∃ r, PhaseReview.ofText tokenScript = .ok r ∧
      "//h?token=****".toList ∈ r.json.strings ∧ ∀ s ∈ r.json.strings, Masked s) ∧
    (∃ r, CommandReview.ofText tokenScript = .ok r ∧
      "//h?token=****".toList ∈ r.json.strings ∧ ∀ s ∈ r.json.strings, Masked s) ∧
    ∃ r, OutputReview.ofText "Exception: Password=abc denied" = .ok r ∧
      "Password=**** denied".toList ∈ r.json.strings ∧ ∀ s ∈ r.json.strings, Masked s := by
  obtain ⟨-, hreview, hphases, hcommands, houtput⟩ := masked_everywhere
  obtain ⟨r, hr, hs⟩ := exists_eq_ok (e := Review.ofText true tokenScript)
    (p := fun r => "Get //h?token=**** Into Name".toList ∈ (r.json none).strings)
    (by decide +kernel)
  obtain ⟨p, hp, hps⟩ := exists_eq_ok (e := PhaseReview.ofText tokenScript)
    (p := fun r => "//h?token=****".toList ∈ r.json.strings) (by decide +kernel)
  obtain ⟨c, hc, hcs⟩ := exists_eq_ok (e := CommandReview.ofText tokenScript)
    (p := fun r => "//h?token=****".toList ∈ r.json.strings) (by decide +kernel)
  obtain ⟨o, ho, hos⟩ := exists_eq_ok (e := OutputReview.ofText "Exception: Password=abc denied")
    (p := fun r => "Password=**** denied".toList ∈ r.json.strings) (by decide +kernel)
  exact ⟨⟨r, hr, of_decide_eq_true hs, hreview true none _ r hr⟩,
    ⟨p, hp, of_decide_eq_true hps, hphases _ p hp⟩,
    ⟨c, hc, of_decide_eq_true hcs, hcommands _ c hc⟩,
    ⟨o, ho, of_decide_eq_true hos, houtput _ o ho⟩⟩

end Redaction

end ScriptAudit
