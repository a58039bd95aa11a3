import Mathlib.Data.List.TakeWhile
import ScriptAudit.Text.Line

/-!
# Runs of characters and the first word of a text

A run of characters of one class ends where another class begins (`takeWhile_append_of_head?`).
`Text.words` collects words character by character. `head?_words` says where the first one stands:
behind the left margin, up to the next blank. `isFirstWord_of_head?_words` puts this as a cut of the
text, which names the word without reading the text from left to right.
-/

namespace ScriptAudit.Text

/-! ## Runs -/

/-- A run of characters of a class ends where the class ends. -/
theorem takeWhile_append_of_head? {p : Char → Bool} {run rest : Text} (hrun : ∀ c ∈ run, p c = true)
    (hrest : ∀ c ∈ rest.head?, p c = false) : (run ++ rest).takeWhile p = run := by
  rw [List.takeWhile_append_of_pos hrun]
  cases rest with
  | nil => simp
  | cons c cs => simp [hrest c rfl]

theorem dropWhile_append_of_head? {p : Char → Bool} {run rest : Text} (hrun : ∀ c ∈ run, p c = true)
    (hrest : ∀ c ∈ rest.head?, p c = false) : (run ++ rest).dropWhile p = rest := by
  rw [List.dropWhile_append_of_pos hrun]
  cases rest with
  | nil => rfl
  | cons c cs => simp [hrest c rfl]

section

variable {a : Char} {t : Text} (h : a ∉ t)
include h

theorem forall_ne_of_notMem : ∀ c ∈ t, decide (c ≠ a) = true := by
  intro c hc
  apply decide_eq_true
  rintro rfl
  exact h hc

/-- A text goes up to the first place of a character. -/
theorem takeWhile_ne_append_cons (s : Text) : (t ++ a :: s).takeWhile (· ≠ a) = t :=
  takeWhile_append_of_head? (forall_ne_of_notMem h) (by simp)

/-- A text goes up to the first place of a character, or to the end. -/
theorem takeWhile_ne_append {s : Text} (hs : ∀ c ∈ s.head?, c = a) :
    (t ++ s).takeWhile (· ≠ a) = t :=
  takeWhile_append_of_head? (forall_ne_of_notMem h) fun c hc => by simp [hs c hc]

theorem dropWhile_ne_append_cons (s : Text) : (t ++ a :: s).dropWhile (· ≠ a) = a :: s :=
  dropWhile_append_of_head? (forall_ne_of_notMem h) (by simp)

end

/-- A run ends at the latest in front of a character outside of the class. -/
theorem takeWhile_append_cons {p : Char → Bool} {a : Char} (ha : p a = false) (t s : Text) :
    (t ++ a :: s).takeWhile p = t.takeWhile p := by
  induction t with
  | nil => simp [ha]
  | cons c cs ih => by_cases hc : p c = true <;> simp [hc, ih]

theorem dropWhile_append_cons {p : Char → Bool} {a : Char} (ha : p a = false) (t s : Text) :
    (t ++ a :: s).dropWhile p = t.dropWhile p ++ a :: s := by
  induction t with
  | nil => simp [ha]
  | cons c cs ih => by_cases hc : p c = true <;> simp [hc, ih]

/-- Behind its first place in a text a character does not end anything. -/
theorem takeWhile_ne_append_of_mem {a : Char} {t : Text} (h : a ∈ t) (s : Text) :
    (t ++ s).takeWhile (· ≠ a) = t.takeWhile (· ≠ a) := by
  obtain ⟨u, v, rfl⟩ := List.append_of_mem h
  rw [List.append_assoc, List.cons_append, takeWhile_append_cons (by simp),
    takeWhile_append_cons (by simp)]

theorem length_takeWhile_add (p : Char → Bool) (t : Text) :
    (t.takeWhile p).length + (t.dropWhile p).length = t.length := by
  rw [← List.length_append, List.takeWhile_append_dropWhile]

/-- How a text begins is told in front of any of its characters. -/
theorem head?_append_cons (t : Text) (a : Char) (s : Text) :
    (t ++ a :: s).head? = some (t.headD a) := by
  cases t <;> rfl

theorem drop_length_takeWhile (p : Char → Bool) (t : Text) :
    t.drop (t.takeWhile p).length = t.dropWhile p := by
  induction t with
  | nil => rfl
  | cons c cs ih => by_cases hc : p c = true <;> simp [hc, ih]

/-- What follows a longest run is outside of the class. -/
theorem eq_false_of_mem_head?_dropWhile {p : Char → Bool} {t : Text} {c : Char}
    (h : c ∈ (t.dropWhile p).head?) : p c = false := by
  have := List.head?_dropWhile_not p t
  rwa [Option.mem_def.1 h] at this

/-- Texts cut at the first place of a character are cut at the same place. -/
theorem eq_of_append_cons_eq {a : Char} {x y s t : Text} (hx : a ∉ x) (hy : a ∉ y)
    (h : x ++ a :: s = y ++ a :: t) : x = y ∧ s = t := by
  obtain rfl : x = y := by
    rw [← takeWhile_ne_append_cons hx s, h, takeWhile_ne_append_cons hy t]
  exact ⟨rfl, (List.cons.inj (List.append_cancel_left h)).2⟩

/-- A character of two texts that follow one another stands in one of them. -/
theorem append_eq_append_cons {a : Char} {u v front rest : Text}
    (h : u ++ v = front ++ a :: rest) :
    (∃ right, u = front ++ a :: right ∧ rest = right ++ v) ∨
      ∃ left, front = u ++ left ∧ v = left ++ a :: rest := by
  rcases List.append_eq_append_iff.1 h with ⟨left, hfront, hv⟩ | ⟨right, hu, hright⟩
  · exact Or.inr ⟨left, hfront, hv⟩
  · cases right with
    | nil => exact Or.inr ⟨[], by simpa using hu.symm, by simpa using hright.symm⟩
    | cons b right =>
      obtain ⟨rfl, hrest⟩ := List.cons.inj hright
      exact Or.inl ⟨right, hu, hrest⟩

theorem trimLeft_append_cons {a : Char} (ha : isBlank a = false) (t s : Text) :
    trimLeft (t ++ a :: s) = trimLeft t ++ a :: s :=
  dropWhile_append_cons ha t s

theorem trimRight_append_cons {a : Char} (ha : isBlank a = false) (t s : Text) :
    trimRight (t ++ a :: s) = t ++ a :: trimRight s := by
  rw [trimRight, List.reverse_append, List.reverse_cons, List.append_assoc,
    List.singleton_append, dropWhile_append_cons ha]
  simp [trimRight]

theorem trimLeft_eq_self {t : Text} (h : ∀ c ∈ t.head?, isBlank c = false) : trimLeft t = t := by
  cases t with
  | nil => rfl
  | cons c cs => simp [trimLeft, h c rfl]

theorem trimRight_eq_self {t : Text} (h : ∀ c ∈ t.getLast?, isBlank c = false) :
    trimRight t = t := by
  rw [trimRight, ← trimLeft, trimLeft_eq_self (by rwa [List.head?_reverse]), List.reverse_reverse]

theorem trim_eq_self {t : Text} (hhead : ∀ c ∈ t.head?, isBlank c = false)
    (hlast : ∀ c ∈ t.getLast?, isBlank c = false) : trim t = t := by
  rw [trim, trimLeft_eq_self hhead, trimRight_eq_self hlast]

theorem after?_append (start t : Text) : after? start (start ++ t) = some t := by
  induction start with
  | nil => cases t <;> rfl
  | cons c cs ih => rw [List.cons_append, after?, if_pos rfl, ih]

/-! ## The first word -/

/-- `w` is the first word of `t`: blanks in front of it, none in it, and a blank or nothing after
it. -/
def IsFirstWord (w t : Text) : Prop :=
  ∃ left right, t = left ++ w ++ right ∧ (∀ c ∈ left, isBlank c = true) ∧ w ≠ [] ∧
    (∀ c ∈ w, isBlank c = false) ∧ ∀ c ∈ right.head?, isBlank c = true

/-- A word under way goes on up to the next blank. -/
theorem head?_words_go {word : Text} (hw : word ≠ []) (t : Text) :
    (words.go word t).head? = some (word.reverse ++ t.takeWhile fun c => !isBlank c) := by
  induction t generalizing word with
  | nil => simp [words.go, hw]
  | cons c cs ih =>
    by_cases hc : isBlank c = true
    · simp [words.go, hc, hw]
    · rw [Bool.not_eq_true] at hc
      rw [words.go, if_neg (by simp [hc]), ih (by simp)]
      simp [hc]

/-- The first word begins behind the left margin. -/
theorem head?_words (t : Text) :
    (words t).head? =
      match trimLeft t with
      | [] => none
      | c :: cs => some ((c :: cs).takeWhile fun c => !isBlank c) := by
  induction t with
  | nil => rfl
  | cons c cs ih =>
    by_cases hc : isBlank c = true
    · have hleft : trimLeft (c :: cs) = trimLeft cs := by simp [trimLeft, hc]
      rw [hleft, ← ih]
      simp [words, words.go, hc]
    · rw [Bool.not_eq_true] at hc
      have hleft : trimLeft (c :: cs) = c :: cs := by simp [trimLeft, hc]
      rw [words, words.go, if_neg (by simp [hc]), head?_words_go (by simp), hleft]
      simp [hc]

/-- What is not blank lengthens the word under way. -/
theorem words_go_append {run : Text} (hrun : ∀ c ∈ run, isBlank c = false) (word t : Text) :
    words.go word (run ++ t) = words.go (run.reverse ++ word) t := by
  induction run generalizing word with
  | nil => rfl
  | cons c run ih =>
    rw [List.cons_append, words.go, if_neg (by simp [hrun c List.mem_cons_self]),
      ih fun d hd => hrun d (List.mem_cons_of_mem c hd)]
    simp

/-- A word under way is followed by the words behind it. -/
theorem words_go_of_ne_nil {word : Text} (hword : word ≠ []) (t : Text) :
    words.go word t =
      (word.reverse ++ t.takeWhile fun c => !isBlank c) :: words (t.dropWhile fun c => !isBlank c) := by
  induction t generalizing word with
  | nil => simp [words.go, words, hword]
  | cons c cs ih =>
    by_cases hc : isBlank c = true
    · simp [words.go, words, hc, hword]
    · rw [Bool.not_eq_true] at hc
      rw [words.go, if_neg (by simp [hc]), ih (by simp)]
      simp [hc]

/-- A text that does not begin with a blank begins with its first word. -/
theorem words_cons {c : Char} (hc : isBlank c = false) (cs : Text) :
    words (c :: cs) =
      ((c :: cs).takeWhile fun c => !isBlank c) :: words ((c :: cs).dropWhile fun c => !isBlank c) := by
  rw [words, words.go, if_neg (by simp [hc]), words_go_of_ne_nil (by simp)]
  simp [hc]

theorem words_trimLeft (t : Text) : words (trimLeft t) = words t := by
  induction t with
  | nil => rfl
  | cons c cs ih =>
    cases hc : isBlank c with
    | true => simpa [trimLeft, words, words.go, hc] using ih
    | false => simp [trimLeft, hc]

/-- A blank separates the words before it from those behind it. -/
theorem words_append_cons {b : Char} (hb : isBlank b = true) (t s : Text) :
    words (t ++ b :: s) = words t ++ words s := by
  suffices h : ∀ word, words.go word (t ++ b :: s) = words.go word t ++ words s from h []
  induction t with
  | nil => intro word; cases word <;> simp [words.go, hb, words]
  | cons c cs ih =>
    intro word
    rw [List.cons_append, words.go, words.go]
    split
    · split
      · exact ih []
      · rw [ih [], List.cons_append]
    · exact ih (c :: word)

/-- A word ends in front of a blank. -/
theorem words_append_of_head? {w s : Text} (hne : w ≠ []) (hw : ∀ c ∈ w, isBlank c = false)
    (hs : ∀ c ∈ s.head?, isBlank c = true) : words (w ++ s) = w :: words s := by
  have hrest : ∀ c ∈ s.head?, (!isBlank c) = false := fun c hc => by rw [hs c hc]; rfl
  have htake := takeWhile_append_of_head? (p := (!isBlank ·)) (List.forall_mem_nil _) hrest
  have hdrop := dropWhile_append_of_head? (p := (!isBlank ·)) (List.forall_mem_nil _) hrest
  rw [List.nil_append] at htake hdrop
  rw [words, words_go_append hw, List.append_nil, words_go_of_ne_nil (by simpa using hne), htake,
    hdrop, List.append_nil, List.reverse_reverse]

/-- Words with a blank in front of each are found again. -/
theorem words_flatMap_append {ws : List Text} (h : ∀ w ∈ ws, w ≠ [] ∧ ∀ c ∈ w, isBlank c = false)
    {s : Text} (hs : ∀ c ∈ s.head?, isBlank c = true) :
    words (ws.flatMap (' ' :: ·) ++ s) = ws ++ words s := by
  induction ws with
  | nil => rfl
  | cons w ws ih =>
    obtain ⟨hne, hw⟩ := h w List.mem_cons_self
    have hnext : ∀ c ∈ (ws.flatMap (' ' :: ·) ++ s).head?, isBlank c = true := by
      cases ws with
      | nil => exact hs
      | cons w' ws => exact fun c hc => Option.some.inj hc ▸ by decide
    have hblank := words_append_cons (b := ' ') (by decide) [] (w ++ (ws.flatMap (' ' :: ·) ++ s))
    rw [List.flatMap_cons, List.append_assoc, List.cons_append]
    rw [List.nil_append] at hblank
    rw [hblank, words_append_of_head? hne hw hnext, ih fun u hu => h u (List.mem_cons_of_mem w hu)]
    rfl

/-- The rest of a text has no more words than the text. -/
theorem length_words_tail_le (c : Char) (cs : Text) :
    (words cs).length ≤ (words (c :: cs)).length := by
  cases hc : isBlank c with
  | true => simp [words, words.go, hc]
  | false =>
    rw [words, words, words.go, if_neg (by simp [hc])]
    cases cs with
    | nil => simp [words.go]
    | cons d ds =>
      cases hd : isBlank d with
      | true => simp [words.go, hd]
      | false =>
        rw [words.go, if_neg (by simp [hd]), words.go, if_neg (by simp [hd]),
          words_go_of_ne_nil (by simp), words_go_of_ne_nil (by simp)]
        simp

/-- A text without blanks in the midst of a text is a part of one of its words, whatever it is. -/
theorem exists_words_append (front back : Text) :
    ∃ before left right after, ∀ run, run ≠ [] → (∀ c ∈ run, isBlank c = false) →
      words (front ++ (run ++ back)) = before ++ (left ++ (run ++ right)) :: after := by
  suffices h : ∀ word, ∃ before left right after, ∀ run, run ≠ [] → (∀ c ∈ run, isBlank c = false) →
      words.go word (front ++ (run ++ back)) = before ++ (left ++ (run ++ right)) :: after from h []
  induction front with
  | nil =>
    intro word
    refine ⟨[], word.reverse, back.takeWhile fun c => !isBlank c,
      words (back.dropWhile fun c => !isBlank c), fun run hne hrun => ?_⟩
    rw [List.nil_append, words_go_append hrun, words_go_of_ne_nil (by simp [hne])]
    simp
  | cons c front ih =>
    intro word
    cases hc : isBlank c with
    | false =>
      obtain ⟨before, left, right, after, h⟩ := ih (c :: word)
      refine ⟨before, left, right, after, fun run hne hrun => ?_⟩
      rw [List.cons_append, words.go, if_neg (by simp [hc]), h run hne hrun]
    | true =>
      obtain ⟨before, left, right, after, h⟩ := ih []
      cases word with
      | nil =>
        refine ⟨before, left, right, after, fun run hne hrun => ?_⟩
        rw [List.cons_append, words.go, if_pos hc, h run hne hrun]
        rfl
      | cons d word =>
        refine ⟨(d :: word).reverse :: before, left, right, after, fun run hne hrun => ?_⟩
        rw [List.cons_append, words.go, if_pos hc, h run hne hrun]
        rfl

theorem isFirstWord_of_head?_words {w t : Text} (h : (words t).head? = some w) :
    IsFirstWord w t := by
  rw [head?_words] at h
  cases hleft : trimLeft t with
  | nil => simp [hleft] at h
  | cons c cs =>
    have hc : isBlank c = false := isBlank_head_dropWhile (t := t) (by rw [← trimLeft, hleft]; rfl)
    rw [hleft] at h
    obtain rfl := Option.some.inj h
    refine ⟨t.takeWhile isBlank, (c :: cs).dropWhile fun c => !isBlank c, ?_, ?_, ?_, ?_, ?_⟩
    · rw [List.append_assoc, List.takeWhile_append_dropWhile, ← hleft, trimLeft,
        List.takeWhile_append_dropWhile]
    · exact fun d hd => List.mem_takeWhile_imp hd
    · simp [hc]
    · exact fun d hd => by simpa using List.mem_takeWhile_imp hd
    · intro d hd
      have := List.head?_dropWhile_not (fun c => !isBlank c) (c :: cs)
      rw [Option.mem_def.1 hd] at this
      simpa using this

theorem ne_nil_of_mem_words_go {word t w : Text} (h : w ∈ words.go word t) : w ≠ [] := by
  induction t generalizing word with
  | nil =>
    rw [words.go] at h
    split at h
    · cases h
    · next hword =>
      obtain rfl := List.mem_singleton.1 h
      simpa using hword
  | cons c cs ih =>
    rw [words.go] at h
    split at h
    · split at h
      · exact ih h
      · next hword =>
        rcases List.mem_cons.1 h with rfl | h
        · simpa using hword
        · exact ih h
    · exact ih h

/-- No word is empty. -/
theorem ne_nil_of_mem_words {t w : Text} (h : w ∈ words t) : w ≠ [] := ne_nil_of_mem_words_go h

/-- A text without words is blank. -/
theorem blank_of_head?_words {t : Text} (h : (words t).head? = none) : blank t = true := by
  rw [head?_words] at h
  cases hleft : trimLeft t with
  | nil => simpa [blank, trimLeft] using hleft
  | cons c cs => simp [hleft] at h

end ScriptAudit.Text
