import ScriptAudit.Proofs.Text.Search
import ScriptAudit.Proofs.Trace.Line

/-!
# What is read of the lines of a trace

Each step that reads a line takes something off its beginning. What it takes and what it leaves are
the text that it was given (`eq_append_of_gap?` and the like), so that the text of an entry ends its
line, and the line of a command holds little else (`eq_append_of_entry?`, `isFront_of_entry?`).
-/

namespace ScriptAudit.Trace

variable {t rest : Text}

theorem eq_append_of_digits? {n : Nat} {ds : Text} (h : digits? n t = some (ds, rest)) :
    t = ds ++ rest ∧ ∀ c ∈ ds, isDecimal c = true := by
  rw [digits?] at h
  split at h
  · next hdigits =>
    cases h
    rw [Bool.and_eq_true] at hdigits
    exact ⟨(List.take_append_drop n t).symm, List.all_eq_true.1 hdigits.2⟩
  · cases h

theorem eq_append_of_fields? {sep : Char} {counts : List Nat} {ds : Text}
    (h : fields? sep counts t = some (ds, rest)) :
    t = ds ++ rest ∧ ∀ c ∈ ds, isDecimal c = true ∨ c = sep := by
  induction counts generalizing t ds rest with
  | nil => cases h; exact ⟨rfl, fun c hc => absurd hc List.not_mem_nil⟩
  | cons n ns ih =>
    cases ns with
    | nil =>
      obtain ⟨ht, hds⟩ := eq_append_of_digits? h
      exact ⟨ht, fun c hc => Or.inl (hds c hc)⟩
    | cons m ms =>
      simp only [fields?, Option.bind_eq_bind, Option.bind_eq_some_iff, Prod.exists] at h
      obtain ⟨first, t₁, hfirst, t₂, hsep, others, t₃, hothers, h⟩ := h
      cases h
      obtain ⟨rfl, hdigits⟩ := eq_append_of_digits? hfirst
      obtain rfl := Text.eq_append_of_after? hsep
      obtain ⟨rfl, hrest⟩ := ih hothers
      refine ⟨by simp, fun c hc => ?_⟩
      rcases List.mem_append.1 hc with hc | hc
      · exact Or.inl (hdigits c hc)
      · rcases List.mem_cons.1 hc with hc | hc
        · exact Or.inr hc
        · exact hrest c hc

theorem eq_append_of_gap? {blanks : Text} (h : gap? t = some (blanks, rest)) :
    t = blanks ++ rest ∧ blanks ≠ [] ∧ (∀ c ∈ blanks, isBlank c = true) ∧
      ∀ c ∈ rest.head?, isBlank c = false := by
  simp only [gap?] at h
  split at h
  · cases h
  · next hne =>
    cases h
    rw [Text.drop_length_takeWhile]
    exact ⟨List.takeWhile_append_dropWhile.symm, by simpa using hne,
      fun c hc => List.mem_takeWhile_imp hc, fun c hc => Text.eq_false_of_mem_head?_dropWhile hc⟩

/-- The characters in front of the text on the line of a command. -/
def IsFront (c : Char) : Prop := isDecimal c = true ∨ isBlank c = true ∨ c ∈ "-:Command".toList

theorem eq_append_of_timestamp? {stamp : Text} (h : timestamp? t = some (stamp, rest)) :
    t = stamp ++ rest ∧ ∀ c ∈ stamp, IsFront c := by
  simp only [timestamp?, Option.bind_eq_bind, Option.bind_eq_some_iff, Prod.exists] at h
  obtain ⟨date, t₁, hdate, blanks, t₂, hgap, time, t₃, htime, h⟩ := h
  cases h
  obtain ⟨rfl, hdates⟩ := eq_append_of_fields? hdate
  obtain ⟨rfl, -, hblanks, -⟩ := eq_append_of_gap? hgap
  obtain ⟨rfl, htimes⟩ := eq_append_of_fields? htime
  have hfront {c : Char} (sep : Char) (hsep : sep ∈ "-:Command".toList)
      (hc : isDecimal c = true ∨ c = sep) : IsFront c :=
    hc.imp_right fun (heq : c = sep) => Or.inr (heq.symm ▸ hsep)
  refine ⟨by simp, fun c hc => ?_⟩
  rcases List.mem_append.1 hc with hc | hc
  · rcases List.mem_append.1 hc with hc | hc
    · exact hfront '-' (by decide) (hdates c hc)
    · exact Or.inr (Or.inl (hblanks c hc))
  · exact hfront ':' (by decide) (htimes c hc)

/-- The text of an entry ends its line, with a gap in front of it. On the line of a command there
is nothing else but the timestamp and one word. -/
theorem eq_append_of_entry? {e : Entry} (h : entry? t = some e) :
    ∃ front, t = front ++ e.text ∧ e.text ≠ [] ∧ (∀ c ∈ e.text.head?, isBlank c = false) ∧
      (∃ c, front.getLast? = some c ∧ isBlank c = true) ∧
        (e.code = none → ∀ c ∈ front, IsFront c) := by
  simp only [ entry?, Option.bind_eq_bind, Option.bind_eq_some_iff, Prod.exists] at h
  obtain ⟨stamp, t₁, hstamp, gap, t₂, hgap, h⟩ := h
  obtain ⟨rfl, hstamps⟩ := eq_append_of_timestamp? hstamp
  obtain ⟨rfl, -, hgaps, -⟩ := eq_append_of_gap? hgap
  have hlast {front blanks : Text} (hne : blanks ≠ []) (hblanks : ∀ c ∈ blanks, isBlank c = true) :
      ∃ c, (front ++ blanks).getLast? = some c ∧ isBlank c = true := by
    refine ⟨blanks.getLast hne, ?_, hblanks _ (List.getLast_mem hne)⟩
    rw [List.getLast?_append, List.getLast?_eq_some_getLast hne, Option.some_or]
  cases hcommand : Text.after? "Command:" t₂ with
  | some t₃ =>
    simp only [hcommand, Option.bind_eq_some_iff, Prod.exists] at h
    obtain ⟨blanks, t₄, hblanks, h⟩ := h
    split at h
    · cases h
    next hne =>
    cases h
    obtain rfl := Text.eq_append_of_after? hcommand
    obtain ⟨rfl, hne', hblank, hhead⟩ := eq_append_of_gap? hblanks
    have hword : ∀ c ∈ "Command:".toList, IsFront c := fun c hc =>
      Or.inr (Or.inr (Text.forall_mem_of_all (p := (· ∈ "-:Command".toList)) (by decide) c hc))
    refine ⟨stamp ++ gap ++ "Command:".toList ++ blanks, by simp, by simpa using hne, hhead,
      hlast hne' hblank, fun _ => ?_⟩
    simp only [List.forall_mem_append]
    exact ⟨⟨⟨hstamps, fun c hc => Or.inr (Or.inl (hgaps c hc))⟩, hword⟩,
      fun c hc => Or.inr (Or.inl (hblank c hc))⟩
  | none =>
    simp only [hcommand, Option.bind_eq_some_iff, Prod.exists] at h
    obtain ⟨t₃, hresult, blanks, t₄, hblanks, t₅, hopen, t₆, hclose, blanks', t₇, hblanks', h⟩ := h
    split at h
    · cases h
    next hne =>
    rw [Bool.or_eq_true, not_or] at hne
    cases h
    obtain ⟨front, hfront⟩ : ∃ front, stamp ++ (gap ++ t₂) = front ++ (blanks' ++ t₇) := by
      obtain rfl := Text.eq_append_of_after? hresult
      obtain ⟨rfl, -⟩ := eq_append_of_gap? hblanks
      obtain rfl := Text.eq_append_of_after? hopen
      obtain ⟨rfl, -⟩ := eq_append_of_gap? hblanks'
      have hcode := List.take_append_drop (t₅.takeWhile isDecimal).length t₅
      rw [Text.eq_append_of_after? hclose] at hcode
      exact ⟨_, by rw [← hcode]; simp only [← List.append_assoc]; rfl⟩
    obtain ⟨rfl, hne', hblank, hhead⟩ := eq_append_of_gap? hblanks'
    exact ⟨front ++ blanks', by rw [hfront, List.append_assoc], by simpa using hne.2, hhead,
      hlast hne' hblank, fun hnone => absurd hnone (Option.some_ne_none _)⟩

/-- On a line without margins the text of an entry has none. -/
theorem trim_text_of_entry? {l : Text} {e : Entry} (h : entry? (Text.trim l) = some e) :
    Text.trim e.text = e.text := by
  obtain ⟨front, hfront, -, hhead, -⟩ := eq_append_of_entry? h
  refine Text.trim_eq_self hhead fun c hc => Text.isBlank_getLast_trim (t := l) ?_
  rw [hfront, List.getLast?_append, hc, Option.some_or]

/-- In front of the text of a command there is its margin, the timestamp and one word, up to a
gap. -/
theorem isFront_of_entry? {front text stamp : Text}
    (h : entry? (Text.trim (front ++ text)) = some ⟨stamp, none, text⟩) :
    (∀ c ∈ front, IsFront c) ∧ ∃ b, front.getLast? = some b ∧ isBlank b = true := by
  obtain ⟨core, hcore, hne, hhead, ⟨b, hlast, hb⟩, hfront⟩ := eq_append_of_entry? h
  have hcore : Text.trim (front ++ text) = core ++ text := hcore
  have hright (t : Text) : Text.trimRight (t ++ text) = t ++ text := by
    refine Text.trimRight_eq_self fun c hc => Text.isBlank_getLast_trim (t := front ++ text) ?_
    rw [List.getLast?_append_of_ne_nil _ hne] at hc
    rwa [hcore, List.getLast?_append_of_ne_nil _ hne]
  rw [Text.trim, Text.trimLeft_append] at hcore
  split at hcore
  · -- a blank margin alone is no front of a command
    rw [Text.trimLeft_eq_self hhead] at hcore
    obtain rfl := List.append_cancel_right ((hright []).symm.trans hcore)
    cases hlast
  · rw [hright] at hcore
    obtain rfl := List.append_cancel_right hcore
    have hsplit := List.takeWhile_append_dropWhile (p := isBlank) (l := front)
    rw [← Text.trimLeft] at hsplit
    constructor
    · intro c hc
      rw [← hsplit] at hc
      rcases List.mem_append.1 hc with hc | hc
      · exact Or.inr (Or.inl (List.mem_takeWhile_imp hc))
      · exact hfront rfl c hc
    · refine ⟨b, ?_, hb⟩
      rw [← hsplit, List.getLast?_append, hlast, Option.some_or]

end ScriptAudit.Trace
