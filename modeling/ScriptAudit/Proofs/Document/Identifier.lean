import ScriptAudit.Document.Identifier
import ScriptAudit.Proofs.Text.Clause

/-!
# Names of variables in identifiers

An identifier uses a variable if it begins with its name and goes on with further names, each behind a
dot and each with arguments in parentheses or without (`Identifier.Uses`). The one pass of
`Identifier.usedName?` finds the name of exactly these (`Identifier.usedName?_eq_some_iff`).

* `Identifier.Call` — arguments in parentheses, or nothing.
* `Identifier.Members` — what `Identifier.members` accepts (`Identifier.members_iff`).
-/

namespace ScriptAudit

namespace Identifier

/-! ## One character -/

theorem afterName_of_ne {c : Char} (hopen : c ≠ '(') (t : Text) :
    afterName (c :: t) = (isNameChar c && afterName t) :=
  afterName.eq_3 c t hopen

theorem inCall_of_ne {c : Char} (hclose : c ≠ ')') (t : Text) :
    inCall (c :: t) = (isArgumentChar c && inCall t) :=
  inCall.eq_3 c t hclose

theorem afterCall_of_ne {c : Char} (hdot : c ≠ '.') (t : Text) : afterCall (c :: t) = false :=
  afterCall.eq_3 (c :: t) (List.cons_ne_nil c t) fun _ _ heq => hdot (List.cons.inj heq).1

theorem arguments_of_ne {c : Char} (hclose : c ≠ ')') (t : Text) :
    arguments (c :: t) = (c != '(' && arguments t) :=
  arguments.eq_3 c t hclose

theorem members_dot (c : Char) (t : Text) : members ('.' :: c :: t) = (isWord c && member t) := rfl

theorem members_of_ne {c : Char} (hc : c ≠ '.') (t : Text) : members (c :: t) = false :=
  members.eq_3 (c :: t) (List.cons_ne_nil c t) fun _ _ heq => hc (List.cons.inj heq).1

theorem members_singleton (c : Char) : members [c] = false :=
  members.eq_3 [c] (List.cons_ne_nil c []) fun d t heq =>
    List.cons_ne_nil d t (List.cons.inj heq).2.symm

theorem member_dot (c : Char) (t : Text) : member ('.' :: c :: t) = (isWord c && member t) := rfl

theorem member_of_ne {c : Char} (hopen : c ≠ '(') (hdot : c ≠ '.') (t : Text) :
    member (c :: t) = (isWord c && member t) :=
  member.eq_4 c t hopen fun _ _ heq _ => hdot heq

/-- Neither parenthesis ends arguments that have none. -/
theorem arguments_append {u : Text} (hu : ∀ c ∈ u, c ≠ '(' ∧ c ≠ ')') (t : Text) :
    arguments (u ++ t) = arguments t := by
  induction u with
  | nil => rfl
  | cons c u ih =>
    obtain ⟨hopen, hclose⟩ := hu c List.mem_cons_self
    have hne : (c != '(') = true := bne_iff_ne.2 hopen
    rw [List.cons_append, arguments_of_ne hclose, hne, Bool.true_and,
      ih fun d hd => hu d (List.mem_cons_of_mem c hd)]

/-- The rest of a name is passed over. -/
theorem member_append {u : Text} (hu : ∀ c ∈ u, isWord c = true) (t : Text) :
    member (u ++ t) = member t := by
  induction u with
  | nil => rfl
  | cons c u ih =>
    have hc := hu c List.mem_cons_self
    have hopen : c ≠ '(' := by
      rintro rfl
      exact absurd hc (by decide)
    have hdot : c ≠ '.' := by
      rintro rfl
      exact absurd hc (by decide)
    rw [List.cons_append, member_of_ne hopen hdot, hc, Bool.true_and,
      ih fun d hd => hu d (List.mem_cons_of_mem c hd)]

/-- Where further names may begin, a name may end. -/
theorem member_of_members {t : Text} (h : members t = true) : member t = true := by
  match t with
  | [] => rfl
  | [c] =>
    rw [members_singleton] at h
    cases h
  | c :: d :: t =>
    by_cases hc : c = '.'
    · subst hc
      exact h
    · rw [members_of_ne hc] at h
      cases h

/-! ## Further names -/

/-- Arguments in parentheses, or nothing. -/
inductive Call : Text → Prop
  | none : Call []
  /-- There are no parentheses among the arguments. -/
  | arguments {a : Text} (plain : ∀ c ∈ a, c ≠ '(' ∧ c ≠ ')') : Call ('(' :: (a ++ [')']))

/-- Names behind dots, each with arguments in parentheses or without. -/
inductive Members : Text → Prop
  | none : Members []
  | cons {name call rest : Text} (isName : Text.IsName name) (isCall : Call call)
      (isRest : Members rest) : Members ('.' :: (name ++ (call ++ rest)))

/-- What follows a character of a name: the rest of the name, arguments and further names. -/
def Behind (t : Text) : Prop :=
  ∃ name call rest, t = name ++ (call ++ rest) ∧ (∀ c ∈ name, isWord c = true) ∧
    Call call ∧ Members rest

theorem Members.dot {c : Char} {t : Text} (hc : isWord c = true) (h : Behind t) :
    Members ('.' :: c :: t) := by
  obtain ⟨name, call, rest, rfl, hname, hcall, hrest⟩ := h
  have hfirst : Text.IsName (c :: name) :=
    ⟨List.cons_ne_nil c name, List.forall_mem_cons.2 ⟨hc, hname⟩⟩
  exact .cons hfirst hcall hrest

/-- Further names do not begin with a character of a word. -/
theorem Members.isWord_head? {t : Text} (h : Members t) : ∀ c ∈ t.head?, isWord c = false := by
  cases h with
  | none => simp
  | cons => exact fun c hc => Option.some.inj hc ▸ by decide

theorem Members.members_eq {t : Text} (h : Members t) : members t = true := by
  induction h with
  | none => rfl
  | @cons name call rest hname hcall _ ih =>
    -- behind the name stand the arguments, if there are any, and the further names
    have hbehind : member (call ++ rest) = true := by
      cases hcall with
      | none => exact member_of_members ih
      | @arguments a ha =>
        show arguments (a ++ [')'] ++ rest) = true
        rw [List.append_assoc, arguments_append ha]
        exact ih
    obtain ⟨c, name, rfl⟩ := List.exists_cons_of_ne_nil hname.1
    rw [List.cons_append, members_dot, hname.2 c List.mem_cons_self, Bool.true_and,
      member_append fun d hd => hname.2 d (List.mem_cons_of_mem c hd), hbehind]

mutual

theorem Members.of_members : ∀ t, members t = true → Members t
  | [], _ => .none
  | [c], h => by
    rw [members_singleton] at h
    cases h
  | c :: d :: t, h => by
    by_cases hc : c = '.'
    · subst hc
      rw [members_dot, Bool.and_eq_true] at h
      exact .dot h.1 (behind_of_member t h.2)
    · rw [members_of_ne hc] at h
      cases h

theorem behind_of_member : ∀ t, member t = true → Behind t
  | [], _ => ⟨[], [], [], rfl, by simp, .none, .none⟩
  | [c], h => by
    by_cases hopen : c = '('
    · subst hopen
      cases h
    by_cases hdot : c = '.'
    · subst hdot
      cases h
    · rw [member_of_ne hopen hdot, Bool.and_eq_true] at h
      exact ⟨[c], [], [], rfl, List.forall_mem_singleton.2 h.1, .none, .none⟩
  | c :: d :: t, h => by
    by_cases hopen : c = '('
    · subst hopen
      obtain ⟨a, rest, heq, ha, hrest⟩ := exists_of_arguments (d :: t) h
      exact ⟨[], '(' :: (a ++ [')']), rest, by simp [heq], by simp, .arguments ha, hrest⟩
    by_cases hdot : c = '.'
    · subst hdot
      rw [member_dot, Bool.and_eq_true] at h
      exact ⟨[], [], '.' :: d :: t, rfl, by simp, .none, .dot h.1 (behind_of_member t h.2)⟩
    · rw [member_of_ne hopen hdot, Bool.and_eq_true] at h
      obtain ⟨name, call, rest, heq, hname, hcall, hrest⟩ := behind_of_member (d :: t) h.2
      exact ⟨c :: name, call, rest, by simp [heq], List.forall_mem_cons.2 ⟨h.1, hname⟩, hcall, hrest⟩

/-- What may follow an opening parenthesis: arguments, the closing one and further names. -/
theorem exists_of_arguments : ∀ t, arguments t = true →
    ∃ a rest, t = a ++ ')' :: rest ∧ (∀ c ∈ a, c ≠ '(' ∧ c ≠ ')') ∧ Members rest
  | [], h => by cases h
  | c :: t, h => by
    by_cases hclose : c = ')'
    · subst hclose
      exact ⟨[], t, rfl, by simp, Members.of_members t h⟩
    · rw [arguments_of_ne hclose, Bool.and_eq_true, bne_iff_ne] at h
      obtain ⟨a, rest, rfl, ha, hrest⟩ := exists_of_arguments t h.2
      exact ⟨c :: a, rest, rfl, List.forall_mem_cons.2 ⟨⟨h.1, hclose⟩, ha⟩, hrest⟩

end

theorem members_iff {t : Text} : members t = true ↔ Members t :=
  ⟨Members.of_members t, Members.members_eq⟩

/-! ## Usages -/

/-- A text uses a variable: it is its name and further names. -/
structure Uses (name t : Text) : Prop where
  isName : Text.IsName name
  exists_members : ∃ rest, Members rest ∧ t = name ++ rest

/-- **The name of a usage.** It is found in one pass, apart from blanks around the identifier. -/
theorem usedName?_eq_some_iff {name t : Text} : usedName? t = some name ↔ Uses name (Text.trim t) := by
  simp only [usedName?, Option.ite_none_right_eq_some, Option.some.injEq, Bool.and_eq_true]
  generalize Text.trim t = t
  constructor
  · rintro ⟨⟨hne, hmembers⟩, rfl⟩
    rw [Text.drop_length_takeWhile] at hmembers
    refine ⟨⟨by simpa using hne, fun c => List.mem_takeWhile_imp⟩, t.dropWhile isWord,
      members_iff.1 hmembers, ?_⟩
    exact List.takeWhile_append_dropWhile.symm
  · rintro ⟨⟨hne, hletters⟩, rest, hrest, rfl⟩
    have htake : (name ++ rest).takeWhile isWord = name :=
      Text.takeWhile_append_of_head? hletters hrest.isWord_head?
    rw [htake, List.drop_left]
    exact ⟨⟨by simpa using hne, members_iff.2 hrest⟩, rfl⟩

/-- Whether an identifier uses a variable. -/
theorem isSome_usedName?_iff {t : Text} :
    (usedName? t).isSome = true ↔ ∃ name, Uses name (Text.trim t) := by
  rw [Option.isSome_iff_exists]
  exact exists_congr fun _ => usedName?_eq_some_iff

end Identifier

end ScriptAudit
