import Mathlib.Data.List.TakeWhile
import ScriptAudit.Text.Line

/-!
# Counting lines and joining them

Lines end at many characters, and a carriage return followed by a line feed ends one line. Counting
line feeds is another matter. `length_lines_newline` says how far the two counts lie apart in a text
that ends in a line feed: by the line ends that are neither a line feed nor a carriage return in
front of one, the strays. There are none exactly in a text of `PlainBreaks`.

`splitAt_joinWith` and `joinWith_flatten` are about lines written one after the other with a
separator: nothing is lost, and joining may be done in stages.
-/

namespace ScriptAudit.Text

/-! ## Line ends -/

/-- Whether a character ends a line without a line feed at its place or right behind it. -/
def isStray (c : Char) (rest : Text) : Bool :=
  isBreak c && c != '\n' && !(c == '\r' && rest.head? == some '\n')

/-- The number of line ends that are neither a line feed nor a carriage return in front of one. -/
def strays : Text → Nat
  | [] => 0
  | c :: cs => (if isStray c cs then 1 else 0) + strays cs

/-- Every line ends in a line feed, which a carriage return may precede. -/
def PlainBreaks (t : Text) : Prop :=
  ∀ before c rest, t = before ++ c :: rest → isBreak c = true →
    c = '\n' ∨ (c = '\r' ∧ rest.head? = some '\n')

theorem isStray_eq_false_iff {c : Char} {rest : Text} :
    isStray c rest = false ↔
      (isBreak c = true → c = '\n' ∨ (c = '\r' ∧ rest.head? = some '\n')) := by
  simp only [isStray, Bool.and_eq_false_iff, bne_eq_false_iff_eq, Bool.not_eq_false',
    Bool.and_eq_true, beq_iff_eq]
  cases isBreak c <;> simp

theorem plainBreaks_cons {c : Char} {cs : Text} :
    PlainBreaks (c :: cs) ↔ isStray c cs = false ∧ PlainBreaks cs := by
  rw [isStray_eq_false_iff]
  constructor
  · intro h
    refine ⟨h [] c cs rfl, fun before d rest heq => h (c :: before) d rest ?_⟩
    rw [heq, List.cons_append]
  · rintro ⟨hc, h⟩ before d rest heq hd
    cases before with
    | nil =>
      obtain ⟨rfl, rfl⟩ := List.cons.inj heq
      exact hc hd
    | cons b before =>
      obtain ⟨rfl, rfl⟩ := List.cons.inj heq
      exact h before d rest rfl hd

theorem strays_eq_zero_iff {t : Text} : strays t = 0 ↔ PlainBreaks t := by
  induction t with
  | nil =>
    simp [strays, PlainBreaks]
  | cons c cs ih =>
    rw [plainBreaks_cons, ← ih, strays]
    cases isStray c cs <;> simp

/-- A text without line breaks has none that could be a stray. -/
theorem strays_eq_zero_of_forall {t : Text} (h : ∀ c ∈ t, isBreak c = false) : strays t = 0 := by
  induction t with
  | nil => rfl
  | cons c cs ih =>
    have hc : isStray c cs = false := by simp [isStray, h c List.mem_cons_self]
    rw [strays, hc, ih fun d hd => h d (List.mem_cons_of_mem _ hd)]
    rfl

/-- What follows a line feed does not change the strays before it. -/
theorem strays_newline_append (u s : Text) :
    strays (u ++ '\n' :: s) = strays (u ++ ['\n']) + strays s := by
  induction u with
  | nil => simp [strays, isStray]
  | cons c u ih =>
    have hc : isStray c (u ++ '\n' :: s) = isStray c (u ++ ['\n']) := by
      cases u <;> rfl
    rw [List.cons_append, List.cons_append, strays, strays, ih, hc]
    omega

/-! ## One character -/

theorem linesFrom_skip (cs : Text) : linesFrom true ('\n' :: cs) = lines cs := rfl

theorem linesFrom_break {afterReturn : Bool} {c : Char} (hskip : (afterReturn && c == '\n') = false)
    (hc : isBreak c = true) (cs : Text) :
    linesFrom afterReturn (c :: cs) = [] :: linesFrom (c == '\r') cs := by
  rw [linesFrom, if_neg (by simp [hskip]), if_pos hc]

theorem linesFrom_of_isBreak_eq_false {c : Char} (hc : isBreak c = false) (afterReturn : Bool)
    (cs : Text) :
    linesFrom afterReturn (c :: cs) = (c :: (lines cs).headD []) :: (lines cs).tail := by
  have hne : (c == '\n') = false := by
    rw [beq_eq_false_iff_ne]
    rintro rfl
    simp [isBreak] at hc
  rw [linesFrom, if_neg (by simp [hne]), if_neg (by simp [hc]), lines]
  cases linesFrom false cs <;> rfl

theorem lines_break {c : Char} (hc : isBreak c = true) (cs : Text) :
    lines (c :: cs) = [] :: linesFrom (c == '\r') cs :=
  linesFrom_break rfl hc cs

/-- A text has a line unless it is empty. -/
theorem lines_ne_nil {t : Text} (h : t ≠ []) : lines t ≠ [] := by
  obtain ⟨c, cs, rfl⟩ := List.exists_cons_of_ne_nil h
  cases hc : isBreak c with
  | true => simp [lines_break hc]
  | false => simp [lines, linesFrom_of_isBreak_eq_false hc]

/-! ## Lines of a text cut in two -/

/-- A line feed separates the lines before it from those after it. -/
theorem linesFrom_newline_append (u s : Text) (afterReturn : Bool) :
    linesFrom afterReturn (u ++ '\n' :: s) =
      linesFrom afterReturn (u ++ ['\n']) ++ lines s := by
  induction u generalizing afterReturn with
  | nil => cases afterReturn <;> simp [linesFrom, lines, isBreak]
  | cons c u ih =>
    rw [List.cons_append, List.cons_append]
    cases hc : isBreak c with
    | true =>
      cases hskip : afterReturn && c == '\n' with
      | true =>
        obtain ⟨rfl, rfl⟩ : afterReturn = true ∧ c = '\n' := by simpa using hskip
        exact ih false
      | false => rw [linesFrom_break hskip hc, linesFrom_break hskip hc, ih, List.cons_append]
    | false =>
      have hne : lines (u ++ ['\n']) ≠ [] := lines_ne_nil (by simp)
      obtain ⟨l, ls, hl⟩ := List.exists_cons_of_ne_nil hne
      have hu : lines (u ++ '\n' :: s) = lines (u ++ ['\n']) ++ lines s := ih false
      rw [linesFrom_of_isBreak_eq_false hc, linesFrom_of_isBreak_eq_false hc, hu, hl]
      rfl

theorem lines_newline_append (u s : Text) :
    lines (u ++ '\n' :: s) = lines (u ++ ['\n']) ++ lines s :=
  linesFrom_newline_append u s false

/-- Characters that end no line stay on the first line. -/
theorem lines_append_of_forall {v : Text} (hv : v ≠ []) (h : ∀ c ∈ v, isBreak c = false)
    (s : Text) : lines (v ++ s) = (v ++ (lines s).headD []) :: (lines s).tail := by
  induction v with
  | nil => exact absurd rfl hv
  | cons c v ih =>
    have hc : isBreak c = false := h c List.mem_cons_self
    rw [List.cons_append, lines, linesFrom_of_isBreak_eq_false hc]
    cases v with
    | nil => rfl
    | cons d v =>
      rw [ih (by simp) fun x hx => h x (List.mem_cons_of_mem _ hx)]
      rfl

theorem linesFrom_of_head?_ne {t : Text} (h : t.head? ≠ some '\n') (afterReturn : Bool) :
    linesFrom afterReturn t = lines t := by
  cases t with
  | nil => cases afterReturn <;> rfl
  | cons c cs =>
    have hc : (c == '\n') = false := beq_eq_false_iff_ne.2 fun heq => h (congrArg some heq)
    rw [lines, linesFrom, linesFrom, hc, Bool.and_false, Bool.and_false]

/-- The first line of a text, with its line end behind it. -/
theorem exists_lines_eq_cons {t : Text} (hne : t ≠ []) :
    ∃ l lineEnd rest, t = l ++ (lineEnd ++ rest) ∧ lines t = l :: lines rest ∧
      (∀ c ∈ l, isBreak c = false) ∧ (∀ c ∈ lineEnd, isBreak c = true) ∧
        (lineEnd = [] → l ≠ [] ∧ rest = []) := by
  have hfirst : ∀ c ∈ t.takeWhile (!isBreak ·), isBreak c = false := fun c hc => by
    simpa using List.mem_takeWhile_imp hc
  have hsplit : t.takeWhile (!isBreak ·) ++ t.dropWhile (!isBreak ·) = t :=
    List.takeWhile_append_dropWhile
  generalize t.takeWhile (!isBreak ·) = l at hfirst hsplit
  cases hrest : t.dropWhile (!isBreak ·) with
  | nil =>
    rw [hrest, List.append_nil] at hsplit
    subst hsplit
    have hlines := lines_append_of_forall hne hfirst []
    rw [List.append_nil] at hlines
    exact ⟨l, [], [], by simp, by simpa [lines, linesFrom] using hlines, hfirst,
      List.forall_mem_nil _, fun _ => ⟨hne, rfl⟩⟩
  | cons b rest =>
    have hb : isBreak b = true := by
      have := List.head?_dropWhile_not (!isBreak ·) t
      rw [hrest] at this
      simpa using this
    rw [hrest] at hsplit
    have hlines : lines t = l :: linesFrom (b == '\r') rest := by
      rw [← hsplit]
      cases l with
      | nil => exact lines_break hb rest
      | cons c l => rw [lines_append_of_forall (by simp) hfirst, lines_break hb]; simp
    cases hreturn : b == '\r' && rest.head? == some '\n' with
    | true =>
      obtain ⟨rfl, hfeed⟩ : b = '\r' ∧ rest.head? = some '\n' := by simpa using hreturn
      obtain ⟨rest, rfl⟩ := List.head?_eq_some_iff.1 hfeed
      exact ⟨l, ['\r', '\n'], rest, hsplit.symm, hlines, hfirst,
        List.forall_mem_cons.2 ⟨rfl, List.forall_mem_singleton.2 rfl⟩, fun h => absurd h (by simp)⟩
    | false =>
      refine ⟨l, [b], rest, hsplit.symm, ?_, hfirst, List.forall_mem_singleton.2 hb,
        fun h => absurd h (by simp)⟩
      rw [hlines]
      cases hb : b == '\r' with
      | false => rfl
      | true => rw [linesFrom_of_head?_ne (by simpa [hb] using hreturn)]

/-- Characters that end no line lie on the line that the text in front of them leaves unfinished,
whatever they are. -/
theorem exists_linesFrom_append {front : Text} {c : Char} (hlast : front.getLast? = some c)
    (hc : isBreak c = false) (back : Text) (afterReturn : Bool) :
    ∃ above line rim below, linesFrom afterReturn front = above ++ [line] ∧
      line.getLast? = some c ∧ ∀ run, run ≠ [] → (∀ d ∈ run, isBreak d = false) →
        linesFrom afterReturn (front ++ (run ++ back)) = above ++ (line ++ (run ++ rim)) :: below := by
  induction front generalizing afterReturn with
  | nil => simp at hlast
  | cons d front ih =>
    cases hd : isBreak d with
    | true =>
      have hlast' : front.getLast? = some c := by
        cases front with
        | nil =>
          obtain rfl : d = c := Option.some.inj hlast
          rw [hc] at hd
          exact absurd hd Bool.false_ne_true
        | cons e front => rwa [List.getLast?_cons_cons] at hlast
      cases hskip : afterReturn && d == '\n' with
      | true =>
        obtain ⟨rfl, rfl⟩ : afterReturn = true ∧ d = '\n' := by simpa using hskip
        exact ih hlast' false
      | false =>
        obtain ⟨above, line, rim, below, hfront, hline, h⟩ := ih hlast' (d == '\r')
        refine ⟨[] :: above, line, rim, below, ?_, hline, fun run hne hrun => ?_⟩
        · rw [linesFrom_break hskip hd, hfront]
          rfl
        · rw [List.cons_append, linesFrom_break hskip hd, h run hne hrun]
          rfl
    | false =>
      cases front with
      | nil =>
        obtain rfl := Option.some.inj hlast
        refine ⟨[], [d], (lines back).headD [], (lines back).tail, ?_, rfl, fun run hne hrun => ?_⟩
        · exact linesFrom_of_isBreak_eq_false hd afterReturn []
        · rw [List.singleton_append, linesFrom_of_isBreak_eq_false hd,
            lines_append_of_forall hne hrun]
          rfl
      | cons e front =>
        rw [List.getLast?_cons_cons] at hlast
        obtain ⟨above, line, rim, below, hfront, hline, h⟩ := ih hlast false
        -- the character begins the first line, which may be the unfinished one
        cases above with
        | nil =>
          refine ⟨[], d :: line, rim, below, ?_, ?_, fun run hne hrun => ?_⟩
          · rw [linesFrom_of_isBreak_eq_false hd, lines, hfront]
            rfl
          · rw [List.getLast?_cons, hline]
            rfl
          · rw [List.cons_append, linesFrom_of_isBreak_eq_false hd, lines, h run hne hrun]
            rfl
        | cons l above =>
          refine ⟨(d :: l) :: above, line, rim, below, ?_, hline, fun run hne hrun => ?_⟩
          · rw [linesFrom_of_isBreak_eq_false hd, lines, hfront]
            rfl
          · rw [List.cons_append, linesFrom_of_isBreak_eq_false hd, lines, h run hne hrun]
            rfl

/-- A line feed at the end adds no line but an empty one. -/
theorem exists_linesFrom_append_newline (t : Text) (afterReturn : Bool) :
    ∃ rest, linesFrom afterReturn (t ++ ['\n']) = linesFrom afterReturn t ++ rest ∧
      (rest = [] ∨ rest = [[]]) := by
  induction t generalizing afterReturn with
  | nil => cases afterReturn <;> simp [linesFrom, isBreak]
  | cons c cs ih =>
    rw [List.cons_append]
    cases hc : isBreak c with
    | true =>
      cases hskip : afterReturn && c == '\n' with
      | true =>
        obtain ⟨rfl, rfl⟩ : afterReturn = true ∧ c = '\n' := by simpa using hskip
        exact ih false
      | false =>
        obtain ⟨rest, hrest, hempty⟩ := ih (c == '\r')
        exact ⟨rest, by rw [linesFrom_break hskip hc, linesFrom_break hskip hc, hrest]; rfl, hempty⟩
    | false =>
      rw [linesFrom_of_isBreak_eq_false hc, linesFrom_of_isBreak_eq_false hc]
      obtain ⟨rest, hrest, hempty⟩ := ih false
      rw [lines, lines, hrest]
      -- the character stands on a line of its own before the end, and on that line after it
      cases linesFrom false cs with
      | nil => rcases hempty with rfl | rfl <;> exact ⟨[], rfl, Or.inl rfl⟩
      | cons l ls => exact ⟨rest, rfl, hempty⟩

/-- A text that ends in a line feed has as many lines as line feeds and strays; a line feed at its
beginning ends none after a carriage return. -/
theorem length_linesFrom_newline (u : Text) (afterReturn : Bool) :
    (linesFrom afterReturn (u ++ ['\n'])).length +
        (if afterReturn && (u ++ ['\n']).head? == some '\n' then 1 else 0) =
      (u ++ ['\n']).count '\n' + strays (u ++ ['\n']) := by
  induction u generalizing afterReturn with
  | nil => cases afterReturn <;> simp [linesFrom, strays, isStray, isBreak]
  | cons c u ih =>
    have hpos : 0 < (lines (u ++ ['\n'])).length :=
      List.length_pos_iff.2 (lines_ne_nil (by simp))
    rw [List.cons_append, strays, List.count_cons, List.head?_cons]
    generalize u ++ ['\n'] = w at ih hpos ⊢
    cases hc : isBreak c with
    | true =>
      cases hskip : afterReturn && c == '\n' with
      | true =>
        obtain ⟨rfl, rfl⟩ : afterReturn = true ∧ c = '\n' := by simpa using hskip
        have hrest := ih false
        simp [linesFrom_skip, lines, isStray] at hrest ⊢
        omega
      | false =>
        have hskip' : (afterReturn && some c == some '\n') = false := hskip
        have hrest := ih (c == '\r')
        rw [linesFrom_break hskip hc, List.length_cons, hskip']
        -- after a carriage return the next line feed ends no line, and the return is no stray
        by_cases hr : (c == '\r' && w.head? == some '\n') = true
        · obtain ⟨rfl, hw⟩ : c = '\r' ∧ w.head? = some '\n' := by simpa using hr
          have hs : isStray '\r' w = false := by simp [isStray, hw]
          rw [if_pos hr] at hrest
          rw [hs, if_neg (by decide), if_neg (by decide)]
          omega
        · rw [if_neg hr] at hrest
          rw [Bool.not_eq_true] at hr
          by_cases hn : c = '\n'
          · simp [isStray, hn] at hrest ⊢
            omega
          · simp [isStray, hc, hn, hr]
            omega
    | false =>
      have hrest := ih false
      have hn : c ≠ '\n' := by
        rintro rfl
        simp [isBreak] at hc
      have hs : isStray c w = false := by simp [isStray, hc]
      rw [← lines, Bool.false_and, if_neg Bool.false_ne_true] at hrest
      rw [linesFrom_of_isBreak_eq_false hc, List.length_cons, List.length_tail]
      simp [hs, hn]
      omega

theorem length_lines_newline (u : Text) :
    (lines (u ++ ['\n'])).length = (u ++ ['\n']).count '\n' + strays (u ++ ['\n']) :=
  length_linesFrom_newline u false

/-! ## Joining -/

theorem joinWith_cons (sep : Text) {ts : List Text} (h : ts ≠ []) (t : Text) :
    joinWith sep (t :: ts) = t ++ sep ++ joinWith sep ts := by
  obtain ⟨u, us, rfl⟩ := List.exists_cons_of_ne_nil h
  rfl

theorem joinWith_append (sep : Text) {ts us : List Text} (ht : ts ≠ []) (hu : us ≠ []) :
    joinWith sep (ts ++ us) = joinWith sep ts ++ sep ++ joinWith sep us := by
  induction ts with
  | nil => exact absurd rfl ht
  | cons t ts ih =>
    cases ts with
    | nil => exact joinWith_cons sep hu t
    | cons t' ts =>
      rw [List.cons_append, joinWith_cons sep (by simp), ih (by simp),
        joinWith_cons sep (List.cons_ne_nil t' ts)]
      simp

/-- What is told of two texts with a character between them by telling it of one of them is told of
joined texts by telling it of one of them. -/
theorem joinWith_iff {P : Text → Prop} {a : Char} (hnil : ¬ P [])
    (happend : ∀ t s, P (t ++ a :: s) ↔ P t ∨ P s) (ts : List Text) :
    P (joinWith [a] ts) ↔ ∃ t ∈ ts, P t := by
  induction ts with
  | nil => exact iff_of_false hnil (by simp)
  | cons t ts ih =>
    cases ts with
    | nil => simp [joinWith]
    | cons t' ts =>
      rw [joinWith_cons _ (List.cons_ne_nil t' ts), List.append_assoc, List.singleton_append, happend,
        ih]
      simp only [List.mem_cons (l := t' :: ts), exists_eq_or_imp]

theorem joinWith_eq (sep : Char) (t : Text) (ts : List Text) :
    joinWith [sep] (t :: ts) = t ++ ts.flatMap (sep :: ·) := by
  induction ts generalizing t with
  | nil => simp [joinWith]
  | cons u ts ih => rw [joinWith_cons _ (by simp), ih, List.flatMap_cons]; simp

theorem lines_append_newline {l : Text} (h : ∀ c ∈ l, isBreak c = false) (s : Text) :
    lines (l ++ '\n' :: s) = l :: lines s := by
  cases l with
  | nil => simp [lines, linesFrom, isBreak]
  | cons c cs =>
    rw [lines_append_of_forall (List.cons_ne_nil c cs) h, lines_break (c := '\n') rfl]
    simp [lines]

/-- Lines that are joined and ended by line feeds are found again. -/
theorem lines_joinWith {ls : List Text} (hne : ls ≠ []) (h : ∀ l ∈ ls, ∀ c ∈ l, isBreak c = false) :
    lines (joinWith ['\n'] ls ++ ['\n']) = ls := by
  induction ls with
  | nil => exact absurd rfl hne
  | cons l ls ih =>
    have hl := h l List.mem_cons_self
    cases ls with
    | nil => exact lines_append_newline hl []
    | cons k ks =>
      rw [joinWith_cons _ (by simp), List.append_assoc, List.append_assoc, List.singleton_append,
        lines_append_newline hl, ih (by simp) fun u hu => h u (List.mem_cons_of_mem _ hu)]

/-- Joining may be done in stages. -/
theorem joinWith_flatten (sep : Text) {parts : List (List Text)} (h : ∀ ts ∈ parts, ts ≠ []) :
    joinWith sep (parts.map (joinWith sep)) = joinWith sep parts.flatten := by
  induction parts with
  | nil => rfl
  | cons ts parts ih =>
    have hts : ts ≠ [] := h ts List.mem_cons_self
    have hparts : ∀ us ∈ parts, us ≠ [] := fun us hus => h us (List.mem_cons_of_mem _ hus)
    cases parts with
    | nil => simp [joinWith]
    | cons us parts =>
      have hflat : (us :: parts).flatten ≠ [] := by
        simp [hparts us List.mem_cons_self]
      rw [List.map_cons, joinWith_cons sep (by simp), ih hparts, ← joinWith_append sep hts hflat,
        ← List.flatten_cons]

theorem splitAt_ne_nil (sep : Char) (t : Text) : splitAt sep t ≠ [] := by
  cases t with
  | nil => exact List.cons_ne_nil _ _
  | cons c t =>
    rw [splitAt]
    split
    · exact List.cons_ne_nil _ _
    · cases splitAt sep t <;> exact List.cons_ne_nil _ _

/-- The parts of a text are the text without its separators. -/
theorem flatten_splitAt (sep : Char) (t : Text) : (splitAt sep t).flatten = t.filter (· ≠ sep) := by
  induction t with
  | nil => rfl
  | cons c cs ih =>
    unfold splitAt
    by_cases hc : c = sep
    · simp [hc, ih]
    · obtain ⟨part, parts, hparts⟩ := List.exists_cons_of_ne_nil (splitAt_ne_nil sep cs)
      rw [hparts] at ih
      simpa [hc, hparts] using ih

theorem splitAt_append_sep {sep : Char} {t : Text} (h : sep ∉ t) (s : Text) :
    splitAt sep (t ++ sep :: s) = t :: splitAt sep s := by
  induction t with
  | nil => simp [splitAt]
  | cons c t ih =>
    rw [List.mem_cons, not_or] at h
    rw [List.cons_append, splitAt, if_neg (Ne.symm h.1), ih h.2]

theorem splitAt_of_notMem {sep : Char} {t : Text} (h : sep ∉ t) : splitAt sep t = [t] := by
  induction t with
  | nil => rfl
  | cons c t ih =>
    rw [List.mem_cons, not_or] at h
    rw [splitAt, if_neg (Ne.symm h.1), ih h.2]

/-- The parts before a separator and those behind it. -/
theorem splitAt_append_cons (sep : Char) (u v : Text) :
    splitAt sep (u ++ sep :: v) = splitAt sep u ++ splitAt sep v := by
  induction u with
  | nil => simp [splitAt]
  | cons c u ih =>
    rw [List.cons_append, splitAt, splitAt]
    split
    · rw [ih, List.cons_append]
    · cases h : splitAt sep u with
      | nil => exact absurd h (splitAt_ne_nil sep u)
      | cons part parts => rw [ih, h]; rfl

/-- A part stands in the text up to a separator or the end. -/
theorem exists_of_mem_splitAt {sep : Char} {t part : Text} (h : part ∈ splitAt sep t) :
    ∃ front back, t = front ++ (part ++ back) ∧ ∀ c ∈ back.head?, c = sep := by
  induction hlength : t.length using Nat.strong_induction_on generalizing t with
  | _ n ih =>
    by_cases hsep : sep ∈ t
    · obtain ⟨u, v, rfl, hu⟩ := List.eq_append_cons_of_mem hsep
      rw [splitAt_append_sep hu] at h
      rcases List.mem_cons.1 h with rfl | h
      · exact ⟨[], sep :: v, rfl, by simp⟩
      · obtain ⟨front, back, rfl, hback⟩ := ih _ (by simp [← hlength]; omega) h rfl
        exact ⟨u ++ sep :: front, back, by simp, hback⟩
    · rw [splitAt_of_notMem hsep, List.mem_singleton] at h
      exact ⟨[], [], by simp [h], by simp⟩

theorem mem_of_mem_splitAt {sep : Char} {t part : Text} (h : part ∈ splitAt sep t) :
    ∀ c ∈ part, c ∈ t := by
  obtain ⟨front, back, rfl, -⟩ := exists_of_mem_splitAt h
  exact fun c hc => List.mem_append_right front (List.mem_append_left back hc)

/-- No part holds the separator. -/
theorem notMem_of_mem_splitAt {sep : Char} {t part : Text} (h : part ∈ splitAt sep t) :
    sep ∉ part := by
  induction t generalizing part with
  | nil =>
    obtain rfl := List.mem_singleton.1 h
    exact List.not_mem_nil
  | cons d t ih =>
    rw [splitAt] at h
    split at h
    · rcases List.mem_cons.1 h with rfl | h
      · exact List.not_mem_nil
      · exact ih h
    · next hd =>
      cases hparts : splitAt sep t with
      | nil => exact absurd hparts (splitAt_ne_nil sep t)
      | cons first parts =>
        rw [hparts] at h ih
        rcases List.mem_cons.1 h with rfl | h
        · rw [List.mem_cons, not_or]
          exact ⟨Ne.symm hd, ih List.mem_cons_self⟩
        · exact ih (List.mem_cons_of_mem _ h)

/-- Parts without the separator are found again between its occurrences. -/
theorem splitAt_joinWith {sep : Char} {ts : List Text} (hne : ts ≠ []) (h : ∀ t ∈ ts, sep ∉ t) :
    splitAt sep (joinWith [sep] ts) = ts := by
  induction ts with
  | nil => exact absurd rfl hne
  | cons t ts ih =>
    have ht : sep ∉ t := h t List.mem_cons_self
    cases ts with
    | nil => exact splitAt_of_notMem ht
    | cons u us =>
      rw [joinWith_cons _ (by simp), List.append_assoc, List.singleton_append,
        splitAt_append_sep ht, ih (by simp) fun v hv => h v (List.mem_cons_of_mem _ hv)]

end ScriptAudit.Text
