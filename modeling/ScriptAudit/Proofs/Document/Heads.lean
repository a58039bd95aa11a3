import ScriptAudit.Proofs.Document.LineEnds
import ScriptAudit.Proofs.Veil.Frontmatter

/-!
# Heads of texts that go on

A delimiter takes in all blanks behind its dashes up to the last line feed, so it may reach further
when a text goes on. Where the text ended with a line feed, this changes neither the settings in
front of the delimiter nor the line on which the body begins.

* `Frontmatter.Reaches` — what becomes of a delimiter when the text goes on.
* `Frontmatter.delimiter?_append` — in a text that ends with a line feed none is lost and none comes
  up.
* `Frontmatter.exists_split?_append` — a head that has been found is found again.
* `Document.head_append` — the metadata and the beginning of the body stay the same.
-/

namespace ScriptAudit

namespace Frontmatter

/-! ## Delimiters -/

section

variable {t u : Text}

/-- The length of a delimiter in front of a text, and its length when the text goes on with `u`. -/
inductive Reaches (t u : Text) : Nat → Nat → Prop
  /-- The delimiter ends within the text, and so it does afterwards. -/
  | within {n : Nat} (h : n < t.length) : Reaches t u n n
  /-- The delimiter takes in the whole text. Afterwards there may be other blanks behind its
  dashes. -/
  | beyond {dashes margin margin' : Text} {n' : Nat} (text_eq : t = dashes ++ margin)
      (take_eq : (t ++ u).take n' = dashes ++ margin')
      (isBlank_margin : ∀ c ∈ margin, isBlank c = true)
      (isBlank_margin' : ∀ c ∈ margin', isBlank c = true) : Reaches t u t.length n'

/-- Up to the blanks behind its dashes, the text in front of a delimiter's end is the same. -/
theorem Reaches.exists_eq {n n' : Nat} (h : Reaches t u n n') : ∃ front margin margin',
    t = front ++ margin ++ t.drop n ∧ t ++ u = front ++ margin' ++ (t ++ u).drop n' ∧
      (∀ c ∈ margin, isBlank c = true) ∧ ∀ c ∈ margin', isBlank c = true := by
  cases h with
  | within h =>
    refine ⟨t.take n, [], [], ?_, ?_, nofun, nofun⟩
    · rw [List.append_nil, List.take_append_drop]
    · have htake : (t ++ u).take n = t.take n := List.take_append_of_le_length h.le
      rw [List.append_nil, ← htake, List.take_append_drop]
  | @beyond dashes margin margin' _ text_eq take_eq hblank hblank' =>
    refine ⟨dashes, margin, margin', ?_, ?_, hblank, hblank'⟩
    · rw [List.drop_length, List.append_nil, ← text_eq]
    · rw [← take_eq, List.take_append_drop]

theorem prefix_of_delimiterBlanks? {blanks taken : Text} {atEnd : Bool}
    (h : delimiterBlanks? blanks atEnd = some taken) : taken <+: blanks := by
  obtain ⟨left, hleft, -⟩ := delimiterBlanks?_eq_some h
  exact ⟨left, hleft.symm⟩

/-- The blanks behind some dashes, when the text goes on behind a line feed. -/
theorem rel_delimiterBlanks?_append (dashes w u : Text) :
    Option.Rel (fun b b' => Reaches (dashes ++ (w ++ ['\n'])) u (dashes.length + b.length)
        (dashes.length + b'.length))
      (delimiterBlanks? ((w ++ ['\n']).takeWhile isBlank) ((w ++ ['\n']).dropWhile isBlank).isEmpty)
      (delimiterBlanks? ((w ++ '\n' :: u).takeWhile isBlank)
        ((w ++ '\n' :: u).dropWhile isBlank).isEmpty) := by
  rcases Text.blank_or_exists_append_cons w with hw | ⟨x, a, y, rfl, ha, -⟩
  · -- the blanks reach the end, and perhaps go on
    have hfeed : isBlank '\n' = true := by decide
    have hblank : ∀ c ∈ w ++ ['\n'], isBlank c = true :=
      List.forall_mem_append.2 ⟨hw, List.forall_mem_singleton.2 hfeed⟩
    have htake : (w ++ '\n' :: u).takeWhile isBlank = w ++ '\n' :: u.takeWhile isBlank := by
      rw [List.takeWhile_append_of_pos hw, List.takeWhile_cons_of_pos hfeed]
    obtain ⟨b', hb'⟩ : ∃ b', delimiterBlanks? (w ++ '\n' :: u.takeWhile isBlank)
        ((w ++ '\n' :: u).dropWhile isBlank).isEmpty = some b' := by
      cases ((w ++ '\n' :: u).dropWhile isBlank).isEmpty with
      | true => exact ⟨_, rfl⟩
      | false => simp [delimiterBlanks?]
    have hbegins : b' <+: (w ++ '\n' :: u).takeWhile isBlank := by
      rw [htake]
      exact prefix_of_delimiterBlanks? hb'
    have hblank' : ∀ c ∈ b', isBlank c = true := by
      intro c hc
      exact List.mem_takeWhile_imp (hbegins.subset hc)
    rw [List.takeWhile_eq_self_iff.2 hblank, List.dropWhile_eq_nil_iff.2 hblank, htake, hb']
    refine .some ?_
    rw [← List.length_append]
    refine .beyond rfl ?_ hblank hblank'
    rw [List.append_assoc, List.append_assoc, List.take_length_add_append]
    exact congrArg _ (List.prefix_iff_eq_take.1 (hbegins.trans (List.takeWhile_prefix _))).symm
  · -- the blanks end in front of a character that stays where it is
    have hbehind (v : Text) : (x ++ a :: y ++ v).takeWhile isBlank = x.takeWhile isBlank ∧
        ((x ++ a :: y ++ v).dropWhile isBlank).isEmpty = false := by
      rw [List.append_assoc, List.cons_append, Text.takeWhile_append_cons ha,
        Text.dropWhile_append_cons ha]
      exact ⟨rfl, List.isEmpty_eq_false_iff.2 (by simp)⟩
    rw [(hbehind _).1, (hbehind _).2, (hbehind _).1, (hbehind _).2]
    cases hb : delimiterBlanks? (x.takeWhile isBlank) false with
    | none => exact .none
    | some b =>
      have hbegins : b <+: x := (prefix_of_delimiterBlanks? hb).trans (List.takeWhile_prefix _)
      have hle := hbegins.length_le
      refine .some (.within ?_)
      simp only [List.length_append, List.length_cons]
      omega

/-- **Delimiters in front of a text that goes on.** None is lost and none comes up. -/
theorem delimiter?_append (h : t.getLast? = some '\n') (u : Text) :
    Option.Rel (Reaches t u) (delimiter? t) (delimiter? (t ++ u)) := by
  obtain ⟨v, rfl⟩ := List.getLast?_eq_some_iff.1 h
  have hdash : ('\n' == '-') = false := by decide
  have hdashes (s : Text) : (v ++ '\n' :: s).takeWhile (· == '-') = v.takeWhile (· == '-') :=
    Text.takeWhile_append_cons (p := (· == '-')) hdash v s
  have hrest (s : Text) :
      (v ++ '\n' :: s).dropWhile (· == '-') = v.dropWhile (· == '-') ++ '\n' :: s :=
    Text.dropWhile_append_cons (p := (· == '-')) hdash v s
  have hsplit : v ++ ['\n'] = v.takeWhile (· == '-') ++ (v.dropWhile (· == '-') ++ ['\n']) := by
    rw [← List.append_assoc, List.takeWhile_append_dropWhile]
  rw [List.append_assoc, List.singleton_append, delimiter?_eq, delimiter?_eq, hdashes, hdashes,
    hrest, hrest]
  split
  · exact .none
  · have hrel := rel_delimiterBlanks?_append (v.takeWhile (· == '-')) (v.dropWhile (· == '-')) u
    rw [← hsplit] at hrel
    exact rel_map hrel fun _ _ hreaches => hreaches

/-- No delimiter stands in front of a text that does not begin with three dashes. -/
theorem delimiter?_eq_none (h : ¬ ['-', '-', '-'] <+: t) : delimiter? t = none := by
  refine Option.eq_none_iff_forall_ne_some.2 fun n hn => h ?_
  obtain ⟨dashes, margin, heq, hdashes, hthree, -, -⟩ := delimiter?_eq_some hn
  have hbegins : List.replicate 3 '-' <+: dashes := by
    rw [List.eq_replicate_of_mem hdashes]
    exact List.prefix_replicate_iff.2 ⟨by simpa using hthree, by simp⟩
  rw [heq]
  exact hbegins.trans (List.prefix_append dashes _)

/-! ## Heads -/

/-- The settings in front of the second delimiter stay the same, and the blanks that belong to it
are all that may change. -/
theorem exists_cut?_append {lineStart : Bool} {block body : Text} (h : t.getLast? = some '\n')
    (hcut : cut? lineStart t = some (block, body)) (u : Text) :
    ∃ front margin margin' body', cut? lineStart (t ++ u) = some (block, body') ∧
      t = front ++ margin ++ body ∧ t ++ u = front ++ margin' ++ body' ∧
      (∀ c ∈ margin, isBlank c = true) ∧ ∀ c ∈ margin', isBlank c = true := by
  induction t generalizing lineStart block with
  | nil => cases h
  | cons c cs ih =>
    have hrel := delimiter?_append h u
    rw [cut?] at hcut
    cases hfound : if lineStart then delimiter? (c :: cs) else none with
    | some n =>
      obtain ⟨rfl, hn⟩ : lineStart = true ∧ delimiter? (c :: cs) = some n := by
        cases lineStart
        · exact absurd hfound (by simp)
        · exact ⟨rfl, hfound⟩
      rw [hfound] at hcut
      obtain ⟨rfl, rfl⟩ := Prod.mk.inj (Option.some.inj hcut)
      rw [hn] at hrel
      cases hn' : delimiter? (c :: cs ++ u) with
      | none =>
        rw [hn'] at hrel
        cases hrel
      | some n' =>
        rw [hn'] at hrel
        obtain ⟨hreaches⟩ := hrel
        obtain ⟨front, margin, margin', heq, heq', hblank, hblank'⟩ := hreaches.exists_eq
        refine ⟨front, margin, margin', _, ?_, heq, heq', hblank, hblank'⟩
        rw [List.cons_append, cut?, if_pos rfl, ← List.cons_append, hn']
    | none =>
      have hnone : (if lineStart then delimiter? (c :: cs ++ u) else none) = none := by
        cases lineStart with
        | false => rfl
        | true =>
          rw [if_pos rfl] at hfound ⊢
          rw [hfound] at hrel
          generalize delimiter? (c :: cs ++ u) = found at hrel
          cases hrel
          rfl
      rw [hfound] at hcut
      obtain ⟨⟨block', body'⟩, hcs, heq⟩ := Option.map_eq_some_iff.1 hcut
      obtain ⟨rfl, rfl⟩ := Prod.mk.inj heq
      have hlast : cs.getLast? = some '\n' := by
        cases cs with
        | nil => cases hcs
        | cons d ds => rwa [List.getLast?_cons_cons] at h
      obtain ⟨front, margin, margin', body', hcut', rfl, heq', hblank, hblank'⟩ := ih hlast hcs
      refine ⟨c :: front, margin, margin', body', ?_, rfl, ?_, hblank, hblank'⟩
      · rw [List.cons_append, cut?, ← List.cons_append, hnone, hcut']
        rfl
      · rw [List.cons_append, heq']
        rfl

/-- **A head that has been found is found again** when a text goes on behind a line feed, with the
same settings, and the body begins on the same line. -/
theorem exists_split?_append {f : Frontmatter} (h : t.getLast? = some '\n')
    (hf : split? t = some f) (u : Text) :
    ∃ f', split? (t ++ u) = some f' ∧ f'.block = f.block ∧
      f'.bodyStart (t ++ u) = f.bodyStart t := by
  rw [split?] at hf
  obtain ⟨n, hn, hf⟩ := Option.bind_eq_some_iff.1 hf
  obtain ⟨⟨block, body⟩, hcut, hf⟩ := Option.bind_eq_some_iff.1 hf
  obtain rfl := Option.some.inj hf
  -- there is a second delimiter, so the first one does not take in the whole text
  have hlt : n < t.length := by
    by_contra hle
    rw [List.drop_of_length_le (Nat.not_lt.1 hle)] at hcut
    cases hcut
  have hn' : delimiter? (t ++ u) = some n := by
    have hrel := delimiter?_append h u
    rw [hn] at hrel
    generalize delimiter? (t ++ u) = found at hrel
    obtain ⟨_ | ⟨htext, -⟩⟩ := hrel
    · rfl
    · omega
  have hlast : (t.drop n).getLast? = some '\n' := by
    rw [List.getLast?_drop, if_neg (Nat.not_le.2 hlt), h]
  obtain ⟨front, margin, margin', body', hcut', heq, heq', hblank, hblank'⟩ :=
    exists_cut?_append hlast hcut u
  have hdrop : (t ++ u).drop n = t.drop n ++ u := List.drop_append_of_le_length hlt.le
  refine ⟨⟨block, body'⟩, ?_, rfl, ?_⟩
  · rw [split?, hn', Option.bind_eq_bind, Option.bind_some, hdrop, hcut']
    rfl
  · have ht : t = (t.take n ++ front ++ margin) ++ body := by
      rw [List.append_assoc, List.append_assoc, ← List.append_assoc front, ← heq,
        List.take_append_drop]
    have htu : t ++ u = (t.take n ++ front ++ margin') ++ body' := by
      rw [List.append_assoc, List.append_assoc, ← List.append_assoc front, ← heq',
        ← List.append_assoc, List.take_append_drop]
    have hstart := bodyStart_append block (t.take n ++ front ++ margin) body
    have hstart' := bodyStart_append block (t.take n ++ front ++ margin') body'
    rw [← ht, Text.trimRight_append_of_forall hblank] at hstart
    rw [← htu, Text.trimRight_append_of_forall hblank'] at hstart'
    exact hstart'.trans hstart.symm

/-- A text that does not begin with three dashes has no head, and gets none by going on. -/
theorem split?_append_eq_none (h : t.getLast? = some '\n') (hdashes : ¬ ['-', '-', '-'] <+: t)
    (u : Text) : split? (t ++ u) = none := by
  have hnone : ¬ ['-', '-', '-'] <+: t ++ u := by
    intro hbegins
    rcases List.prefix_or_prefix_of_prefix hbegins (List.prefix_append t u) with htext | hshort
    · exact hdashes htext
    · exact absurd (hshort.subset (List.mem_of_getLast? h)) (by decide)
  rw [split?, delimiter?_eq_none hnone]
  rfl

end

end Frontmatter

namespace Document

/-- A head stays the same when a text goes on behind a line feed, if the text does not begin with
three dashes or the second delimiter has been found. -/
theorem head_append [Yaml.Loader] {t : Text} {m : Option Metadata} {start : Nat}
    (h : t.getLast? = some '\n')
    (hhead : ¬ ['-', '-', '-'] <+: t ∨ (Frontmatter.split? t).isSome = true)
    (hread : head t = .ok (m, start)) (u : Text) : head (t ++ u) = .ok (m, start) := by
  cases hf : Frontmatter.split? t with
  | none =>
    rw [hf] at hhead
    have hdashes := hhead.resolve_right Bool.false_ne_true
    rw [head, hf] at hread
    rw [head, Frontmatter.split?_append_eq_none h hdashes]
    exact hread
  | some f =>
    obtain ⟨f', hf', hblock, hstart⟩ := Frontmatter.exists_split?_append h hf u
    rw [head, hf] at hread
    rw [head, hf']
    simp only [hblock, hstart]
    exact hread

end Document

end ScriptAudit
