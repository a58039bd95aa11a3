import ScriptAudit.Proofs.Document.Identifier
import ScriptAudit.Proofs.Text.Parentheses

/-!
# The form of an identifier

What a well-formed identifier looks like is said by its positions (`Identifier.Grammatical`): where
parentheses may stand, and which characters stand in them (`Identifier.InArgument`) and outside
(`Identifier.InName`). Reading from left to right, it is a character of a name and what may follow
one (`Identifier.Rest`); `Identifier.afterName` decides the latter, and both say the same
(`Identifier.grammatical_iff`).

* `Identifier.Grammatical.append_names`, `Identifier.Grammatical.append_call` — the steps by which
  an identifier grows, and `Identifier.Grammatical.append_rest` for all of them.
* `Identifier.Grammatical.rest` — an identifier of the form is read to its end.
-/

namespace ScriptAudit

namespace Identifier

/-! ## Classes of characters -/

/-- The characters of names are those of words, and the dot. -/
def InName (c : Char) : Prop := isWord c = true ∨ c = '.'

/-- The characters of arguments are those of words, commas, blanks and quotes. -/
def InArgument (c : Char) : Prop :=
  isWord c = true ∨ c = ',' ∨ isBlank c = true ∨ c = '"' ∨ c = '\''

instance : DecidablePred InName := fun _ => inferInstanceAs (Decidable (_ ∨ _))

instance : DecidablePred InArgument := fun _ => inferInstanceAs (Decidable (_ ∨ _))

section

variable {c : Char}

theorem isNameChar_iff : isNameChar c = true ↔ InName c := by
  simp [isNameChar, InName]

theorem isArgumentChar_iff : isArgumentChar c = true ↔ InArgument c := by
  simp [isArgumentChar, InArgument, or_assoc]

theorem InName.ne (h : InName c) : c ≠ '(' ∧ c ≠ ')' := by
  constructor
  · rintro rfl
    exact absurd h (by decide)
  · rintro rfl
    exact absurd h (by decide)

theorem InArgument.ne (h : InArgument c) : c ≠ '(' ∧ c ≠ ')' := by
  constructor
  · rintro rfl
    exact absurd h (by decide)
  · rintro rfl
    exact absurd h (by decide)

end

/-! ## The rest of an identifier -/

/-- What follows a character of a name: further characters and calls, each of which ends the
identifier or has a dot and a name behind it. -/
inductive Rest : Text → Prop
  | none : Rest []
  | name {c : Char} {t : Text} (isName : InName c) (rest : Rest t) : Rest (c :: t)
  | lastCall {a : Text} (plain : ∀ c ∈ a, InArgument c) : Rest (Text.call a)
  | call {a : Text} {c : Char} {t : Text} (plain : ∀ c ∈ a, InArgument c)
      (isName : InName c) (rest : Rest t) : Rest (Text.call a ++ '.' :: c :: t)

/-- What follows a call. -/
def BehindCall (t : Text) : Prop :=
  t = [] ∨ ∃ c u, t = '.' :: c :: u ∧ InName c ∧ Rest u

theorem Rest.of_behindCall {a t : Text} (ha : ∀ c ∈ a, InArgument c)
    (h : BehindCall t) : Rest (Text.call a ++ t) := by
  rcases h with rfl | ⟨c, u, rfl, hc, hu⟩
  · rw [List.append_nil]
    exact .lastCall ha
  · exact .call ha hc hu

/-- A dot belongs to a name as well as it stands in front of one. -/
theorem BehindCall.rest {t : Text} (h : BehindCall t) : Rest t := by
  rcases h with rfl | ⟨c, u, rfl, hc, hu⟩
  · exact .none
  · exact .name (by decide) (.name hc hu)

theorem Rest.append {n t : Text} (hn : ∀ c ∈ n, InName c) (h : Rest t) :
    Rest (n ++ t) := by
  induction n with
  | nil => exact h
  | cons c n ih =>
    obtain ⟨hc, hn⟩ := List.forall_mem_cons.1 hn
    exact .name hc (ih hn)

mutual

theorem rest_of_afterName : ∀ t, afterName t = true → Rest t
  | [], _ => .none
  | c :: t, h => by
    by_cases hopen : c = '('
    · subst hopen
      obtain ⟨a, u, rfl, ha, hu⟩ := exists_of_inCall t h
      exact List.cons_append ▸ Rest.of_behindCall ha hu
    · rw [afterName_of_ne hopen, Bool.and_eq_true, isNameChar_iff] at h
      exact .name h.1 (rest_of_afterName t h.2)

theorem exists_of_inCall : ∀ t, inCall t = true →
    ∃ a u, t = a ++ [')'] ++ u ∧ (∀ c ∈ a, InArgument c) ∧ BehindCall u
  | [], h => by cases h
  | c :: t, h => by
    by_cases hclose : c = ')'
    · subst hclose
      exact ⟨[], t, rfl, by simp, behindCall_of_afterCall t h⟩
    · rw [inCall_of_ne hclose, Bool.and_eq_true, isArgumentChar_iff] at h
      obtain ⟨a, u, rfl, ha, hu⟩ := exists_of_inCall t h.2
      exact ⟨c :: a, u, rfl, List.forall_mem_cons.2 ⟨h.1, ha⟩, hu⟩

theorem behindCall_of_afterCall : ∀ t, afterCall t = true → BehindCall t
  | [], _ => Or.inl rfl
  | [c], h => by
    by_cases hdot : c = '.'
    · subst hdot
      cases h
    · rw [afterCall_of_ne hdot] at h
      cases h
  | c :: d :: t, h => by
    by_cases hdot : c = '.'
    · subst hdot
      rw [afterCall, Bool.and_eq_true, isNameChar_iff] at h
      exact Or.inr ⟨d, t, rfl, h.1, rest_of_afterName t h.2⟩
    · rw [afterCall_of_ne hdot] at h
      cases h

end

theorem inCall_append {a : Text} (ha : ∀ c ∈ a, InArgument c) (t : Text) :
    inCall (a ++ [')'] ++ t) = afterCall t := by
  induction a with
  | nil => rfl
  | cons c a ih =>
    obtain ⟨hc, ha⟩ := List.forall_mem_cons.1 ha
    rw [List.cons_append, List.cons_append, inCall_of_ne hc.ne.2, isArgumentChar_iff.2 hc,
      Bool.true_and, ih ha]

theorem Rest.afterName_eq {t : Text} (h : Rest t) : afterName t = true := by
  induction h with
  | none => rfl
  | name hc _ ih => rw [afterName_of_ne hc.ne.1, isNameChar_iff.2 hc, ih, Bool.and_self]
  | @lastCall a ha =>
    show inCall (a ++ [')']) = true
    rw [← List.append_nil (a ++ [')']), inCall_append ha]
    rfl
  | @call a c t ha hc _ ih =>
    show inCall (a ++ [')'] ++ '.' :: c :: t) = true
    rw [inCall_append ha, afterCall, isNameChar_iff.2 hc, ih, Bool.and_self]

theorem afterName_iff {t : Text} : afterName t = true ↔ Rest t :=
  ⟨rest_of_afterName t, Rest.afterName_eq⟩

/-! ## Position by position -/

/-- The form of an identifier, by what stands at its positions. -/
structure Grammatical (t : Text) : Prop where
  begins : ∃ c, t[0]? = some c ∧ InName c
  /-- Every parenthesis belongs to a pair. -/
  opened : ∀ i, t[i]? = some '(' → ∃ j, Text.Pair t i j
  closed : ∀ j, t[j]? = some ')' → ∃ i, Text.Pair t i j
  /-- Pairs neither overlap nor lie in each other. -/
  disjoint : ∀ i j i' j', Text.Pair t i j → Text.Pair t i' j' → i = i' ∧ j = j' ∨ j < i' ∨ j' < i
  /-- Arguments stand in a pair, names outside. -/
  arguments : ∀ i j k c, Text.Pair t i j → i < k → k < j → t[k]? = some c → InArgument c
  names : ∀ k c, Text.Outside t k → t[k]? = some c → InName c
  /-- A pair stands directly behind a name. -/
  called : ∀ i, t[i]? = some '(' →
    ∃ k c, i = k + 1 ∧ Text.Outside t k ∧ t[k]? = some c ∧ InName c
  /-- A pair ends the text, or a dot and a name follow. -/
  followed : ∀ j, t[j]? = some ')' →
    j + 1 = t.length ∨ t[j + 1]? = some '.' ∧ ∃ c, t[j + 2]? = some c ∧ InName c

/-- A name begins. -/
theorem grammatical_singleton {c : Char} (hc : InName c) : Grammatical [c] := by
  have hget {k : Nat} {d : Char} (h : [c][k]? = some d) : k = 0 ∧ d = c := by
    rw [List.getElem?_singleton] at h
    split at h
    · next hk => exact ⟨hk, (Option.some.inj h).symm⟩
    · cases h
  have hnone {k : Nat} {d : Char} (hd : ¬ InName d) : [c][k]? ≠ some d := by
    intro h
    rw [(hget h).2] at hd
    exact hd hc
  constructor
  case begins => exact ⟨c, rfl, hc⟩
  case opened => exact fun i h => absurd h (hnone (by decide))
  case closed => exact fun j h => absurd h (hnone (by decide))
  case disjoint => exact fun _ _ _ _ => Text.Pair.disjoint
  case arguments => exact fun i j k d hpair => absurd hpair.opens (hnone (by decide))
  case names =>
    intro k d _ h
    rw [(hget h).2]
    exact hc
  case called => exact fun i h => absurd h (hnone (by decide))
  case followed => exact fun j h => absurd h (hnone (by decide))

/-- The last character belongs to a name. -/
def EndsInName (t : Text) : Prop := ∃ u c, t = u ++ [c] ∧ InName c

/-- A call does not end in a name. -/
theorem EndsInName.ne_of_closes {t : Text} (h : EndsInName t) {j : Nat} (hj : t[j]? = some ')') :
    j + 1 ≠ t.length := by
  obtain ⟨u, c, rfl, hc⟩ := h
  intro hend
  rw [List.length_append, List.length_singleton, Nat.add_right_cancel_iff] at hend
  rw [hend, List.getElem?_concat_length] at hj
  exact hc.ne.2 (Option.some.inj hj)

section

variable {t : Text}

theorem Grammatical.begins_append (h : Grammatical t) (s : Text) :
    ∃ c, (t ++ s)[0]? = some c ∧ InName c := by
  obtain ⟨c, hc, hname⟩ := h.begins
  exact ⟨c, Text.getElem?_append_of_eq_some hc s, hname⟩

theorem Grammatical.arguments_append (h : Grammatical t) {s : Text} {i j k : Nat} {c : Char}
    (hpair : Text.Pair t i j) (hi : i < k) (hj : k < j) (hc : (t ++ s)[k]? = some c) :
    InArgument c := by
  rw [List.getElem?_append_left (Nat.lt_trans hj hpair.lt_length)] at hc
  exact h.arguments i j k c hpair hi hj hc

theorem Grammatical.called_append (h : Grammatical t) (s : Text) {i : Nat}
    (hi : t[i]? = some '(') : ∃ k c, i = k + 1 ∧ k < t.length ∧ Text.Outside t k ∧
      (t ++ s)[k]? = some c ∧ InName c := by
  obtain ⟨k, c, rfl, hout, hc, hname⟩ := h.called i hi
  exact ⟨k, c, rfl, (List.getElem?_eq_some_iff.1 hc).1, hout,
    Text.getElem?_append_of_eq_some hc s, hname⟩

theorem Grammatical.followed_append (h : Grammatical t) (s : Text) {j : Nat}
    (hj : t[j]? = some ')') : j + 1 = t.length ∨
      (t ++ s)[j + 1]? = some '.' ∧ ∃ c, (t ++ s)[j + 2]? = some c ∧ InName c := by
  rcases h.followed j hj with hend | ⟨hdot, c, hc, hname⟩
  · exact Or.inl hend
  · exact Or.inr ⟨Text.getElem?_append_of_eq_some hdot s, c,
      Text.getElem?_append_of_eq_some hc s, hname⟩

end

/-- Characters of names keep the form, if those behind a call begin with a dot. -/
theorem Grammatical.append_names {t n : Text} (h : Grammatical t) (hn : ∀ c ∈ n, InName c)
    (hlast : ∀ j, t[j]? = some ')' → j + 1 = t.length → ∃ c u, n = '.' :: c :: u) :
    Grammatical (t ++ n) := by
  have hopen : '(' ∉ n := fun hmem => (hn _ hmem).ne.1 rfl
  have hclose : ')' ∉ n := fun hmem => (hn _ hmem).ne.2 rfl
  have hold {k : Nat} {c : Char} (hc : c ∉ n) (h : (t ++ n)[k]? = some c) : t[k]? = some c := by
    rcases Text.getElem?_append_cases h with hk | ⟨m, -, hm⟩
    · exact hk
    · exact absurd (List.mem_of_getElem? hm) hc
  constructor
  case begins => exact h.begins_append n
  case opened =>
    intro i hi
    obtain ⟨j, hpair⟩ := h.opened i (hold hopen hi)
    exact ⟨j, hpair.append n⟩
  case closed =>
    intro j hj
    obtain ⟨i, hpair⟩ := h.closed j (hold hclose hj)
    exact ⟨i, hpair.append n⟩
  case disjoint => exact fun _ _ _ _ => Text.Pair.disjoint
  case arguments =>
    intro i j k c hpair hi hj hc
    exact h.arguments_append ((Text.pair_append_iff_of_notMem hclose).1 hpair) hi hj hc
  case names =>
    intro k c hout hc
    rw [Text.outside_append_iff_of_notMem hclose] at hout
    rcases Text.getElem?_append_cases hc with hk | ⟨m, -, hm⟩
    · exact h.names k c hout hk
    · exact hn c (List.mem_of_getElem? hm)
  case called =>
    intro i hi
    obtain ⟨k, c, rfl, -, hout, hname⟩ := h.called_append n (hold hopen hi)
    exact ⟨k, c, rfl, (Text.outside_append_iff_of_notMem hclose).2 hout, hname⟩
  case followed =>
    intro j hj
    have hj := hold hclose hj
    rcases h.followed_append n hj with hend | hname
    · -- the call ended the text, so that the dot and the name are new
      obtain ⟨c, u, rfl⟩ := hlast j hj hend
      refine Or.inr ⟨?_, c, ?_, hn c (by simp)⟩
      · rw [hend, Text.getElem?_append_cons_length]
      · rw [← Nat.add_assoc j 1 1, hend, Text.getElem?_append_length_add]
        rfl
    · exact Or.inr hname

/-- A call behind a name keeps the form. -/
theorem Grammatical.append_call {t a : Text} (h : Grammatical t) (hend : EndsInName t)
    (ha : ∀ c ∈ a, InArgument c) : Grammatical (t ++ Text.call a) := by
  have hplain : ∀ c ∈ a, c ≠ '(' ∧ c ≠ ')' := fun c hc => (ha c hc).ne
  constructor
  case begins => exact h.begins_append _
  case opened =>
    intro i hi
    rcases Text.opens_append_call hplain hi with hold | rfl
    · obtain ⟨j, hpair⟩ := h.opened i hold
      exact ⟨j, hpair.append _⟩
    · exact ⟨_, Text.pair_call hplain t⟩
  case closed =>
    intro j hj
    rcases Text.closes_append_call hplain hj with hold | rfl
    · obtain ⟨i, hpair⟩ := h.closed j hold
      exact ⟨i, hpair.append _⟩
    · exact ⟨_, Text.pair_call hplain t⟩
  case disjoint => exact fun _ _ _ _ => Text.Pair.disjoint
  case arguments =>
    intro i j k c hpair hi hj hc
    rcases (Text.pair_append_call_iff hplain).1 hpair with hold | ⟨rfl, rfl⟩
    · exact h.arguments_append hold hi hj hc
    · exact ha c (Text.mem_of_getElem?_append_call hc hi hj)
  case names =>
    intro k c hout hc
    obtain ⟨hout, hnew⟩ := (Text.outside_append_call_iff hplain).1 hout
    rcases Text.getElem?_append_cases hc with hold | ⟨m, rfl, hm⟩
    · exact h.names k c hout hold
    · have hlt := (List.getElem?_eq_some_iff.1 hm).1
      rw [Text.length_call] at hlt
      omega
  case called =>
    intro i hi
    rcases Text.opens_append_call hplain hi with hold | rfl
    · obtain ⟨k, c, rfl, hlt, hout, hname⟩ := h.called_append _ hold
      exact ⟨k, c, rfl, (Text.outside_append_call_iff hplain).2 ⟨hout, Or.inl hlt⟩, hname⟩
    · obtain ⟨u, c, rfl, hname⟩ := hend
      have hc : (u ++ [c])[u.length]? = some c := List.getElem?_concat_length
      have hlength : (u ++ [c]).length = u.length + 1 := List.length_append
      have hout := Text.outside_last hc hname.ne.2 hlength.symm
      exact ⟨u.length, c, hlength,
        (Text.outside_append_call_iff hplain).2 ⟨hout, Or.inl (by omega)⟩,
        Text.getElem?_append_of_eq_some hc _, hname⟩
  case followed =>
    intro j hj
    rcases Text.closes_append_call hplain hj with hold | rfl
    · rcases h.followed_append _ hold with hlast | hname
      · exact absurd hlast (hend.ne_of_closes hold)
      · exact Or.inr hname
    · left
      rw [List.length_append, Text.length_call]
      rfl

/-- What may follow a name keeps the form. -/
theorem Grammatical.append_rest {t u : Text} (h : Grammatical u) (hend : EndsInName u)
    (ht : Rest t) : Grammatical (u ++ t) := by
  induction ht generalizing u with
  | none => rwa [List.append_nil]
  | @name c t hc _ ih =>
    have hname : Grammatical (u ++ [c]) :=
      h.append_names (List.forall_mem_singleton.2 hc) fun j hj hlast =>
        absurd hlast (hend.ne_of_closes hj)
    rw [List.append_cons]
    exact ih hname ⟨u, c, rfl, hc⟩
  | lastCall ha => exact h.append_call hend ha
  | @call a c t ha hc _ ih =>
    have hcall := h.append_call hend ha
    have hname : Grammatical (u ++ Text.call a ++ ['.', c]) :=
      hcall.append_names (List.forall_mem_cons.2 ⟨by decide, List.forall_mem_singleton.2 hc⟩)
        fun _ _ _ => ⟨c, [], rfl⟩
    have heq : u ++ (Text.call a ++ '.' :: c :: t) = u ++ Text.call a ++ ['.', c] ++ t := by
      simp
    rw [heq]
    exact ih hname ⟨u ++ Text.call a ++ ['.'], c, by simp, hc⟩

section

variable {u a s : Text}

theorem Grammatical.arguments_call (h : Grammatical (u ++ (Text.call a ++ s)))
    (hpair : Text.Pair (u ++ (Text.call a ++ s)) u.length (u.length + (a.length + 1))) :
    ∀ c ∈ a, InArgument c := by
  intro c hmem
  obtain ⟨m, hm⟩ := List.getElem?_of_mem hmem
  have hlt := (List.getElem?_eq_some_iff.1 hm).1
  apply h.arguments _ _ (u.length + (m + 1)) c hpair (by omega) (by omega)
  rw [Text.getElem?_append_length_add]
  exact Text.getElem?_append_of_eq_some (Text.getElem?_call_succ hm) s

/-- Behind a call, a text of the form ends or goes on with a dot and a name. -/
theorem Grammatical.behind_call (h : Grammatical (u ++ (Text.call a ++ s)))
    (hpair : Text.Pair (u ++ (Text.call a ++ s)) u.length (u.length + (a.length + 1))) :
    s = [] ∨ ∃ c t, s = '.' :: c :: t ∧ InName c ∧
      Text.Outside (u ++ (Text.call a ++ s)) (u.length + (a.length + 1) + 2) := by
  have hget (m : Nat) :
      (u ++ (Text.call a ++ s))[u.length + (a.length + 1) + (m + 1)]? = s[m]? := by
    rw [← List.append_assoc, ← Text.getElem?_append_length_add (u ++ Text.call a) s m,
      List.length_append, Text.length_call]
    congr 1
    omega
  rcases h.followed _ hpair.closes with hend | ⟨hdot, c, hc, hname⟩
  · left
    rw [← List.append_assoc, List.length_append, List.length_append, Text.length_call] at hend
    exact List.eq_nil_of_length_eq_zero (by omega)
  · right
    have hopen : (u ++ (Text.call a ++ s))[u.length + (a.length + 1) + 2]? ≠ some '(' := by
      rw [hc]
      exact fun heq => hname.ne.1 (Option.some.inj heq)
    have hout := (hpair.outside_succ (by rw [hdot]; decide)).succ hopen
    rw [hget 0] at hdot
    rw [hget 1] at hc
    obtain ⟨t, rfl⟩ : ∃ t, s = '.' :: c :: t := by
      match s, hdot, hc with
      | d :: e :: t, hdot, hc => exact ⟨t, by rw [Option.some.inj hdot, Option.some.inj hc]⟩
    exact ⟨c, t, rfl, hname, hout⟩

end

/-- From a position outside on, a text of the form goes on as a name may. -/
theorem Grammatical.rest {t u : Text} (h : Grammatical (u ++ t)) {k : Nat} (hu : u.length = k + 1)
    (hout : Text.Outside (u ++ t) k) : Rest t := by
  induction hlength : t.length using Nat.strong_induction_on generalizing t u k with
  | h n ih =>
    subst hlength
    cases t with
    | nil => exact .none
    | cons c t =>
      have hc : (u ++ c :: t)[k + 1]? = some c := by
        rw [← hu, Text.getElem?_append_cons_length]
      by_cases hopen : c = '('
      · subst hopen
        obtain ⟨j, hpair⟩ := h.opened (k + 1) hc
        rw [← hu] at hpair
        obtain ⟨a, s, heq, rfl⟩ := hpair.exists_call
        rw [heq] at h hpair hout ih ⊢
        have ha := h.arguments_call hpair
        rcases h.behind_call hpair with rfl | ⟨c, t, rfl, hname, hout⟩
        · exact .of_behindCall ha (Or.inl rfl)
        · have hsplit : u ++ (Text.call a ++ '.' :: c :: t) = u ++ Text.call a ++ ['.', c] ++ t := by
            simp
          rw [hsplit] at h hout
          have hlt : t.length < (Text.call a ++ '.' :: c :: t).length := by
            simp only [List.length_append, List.length_cons]
            omega
          have hlength : (u ++ Text.call a ++ ['.', c]).length =
              u.length + (a.length + 1) + 2 + 1 := by
            simp only [List.length_append, Text.length_call, List.length_cons, List.length_nil]
            omega
          have hrest := ih t.length hlt h hlength hout rfl
          exact .of_behindCall ha (Or.inr ⟨c, t, rfl, hname, hrest⟩)
      · have hout : Text.Outside (u ++ c :: t) (k + 1) :=
          hout.succ (by rw [hc]; exact fun heq => hopen (Option.some.inj heq))
        have hname := h.names (k + 1) c hout hc
        rw [List.append_cons] at h hout
        exact .name hname (ih t.length (Nat.lt_succ_self _) h (by simp [hu]) hout rfl)

theorem grammatical_iff {t : Text} :
    Grammatical t ↔ ∃ c u, t = c :: u ∧ InName c ∧ Rest u := by
  constructor
  · intro h
    obtain ⟨c, hc, hname⟩ := h.begins
    cases t with
    | nil => cases hc
    | cons d u =>
      obtain rfl : d = c := Option.some.inj hc
      have hopen : (d :: u)[0]? ≠ some '(' := fun heq =>
        hname.ne.1 (Option.some.inj heq)
      exact ⟨d, u, rfl, hname, Grammatical.rest (u := [d]) h rfl (Text.outside_zero hopen)⟩
  · rintro ⟨c, u, rfl, hc, hu⟩
    exact (grammatical_singleton hc).append_rest ⟨[], c, rfl, hc⟩ hu

end Identifier

end ScriptAudit
