import ScriptAudit.Proofs.Document.Commands
import ScriptAudit.Proofs.Document.Keyword
import ScriptAudit.Proofs.Json.Grammar
import ScriptAudit.Proofs.Text.Search

/-!
# Bodies that hold JSON

Brackets are counted character by character, and each line begins outside of strings. A text is
`Closed` when counting its brackets comes out even and all of its line ends stand outside of strings;
what the grammar of JSON makes is closed (`closed_of_isPart`). Between the brackets of an object or
an array the count is never back at nothing, so the lines of a body end where the body ends. Main
statement: `body_of_json`.

* `Place.next`, `Place.weight`, `balance_append` — counting as a walk from place to place.
* `BreaksAbove`, `Closed` — where line ends stand, and texts that leave place and count as they were.
* `balanced?_lines` — how far a body goes that is counted line by line.
-/

namespace ScriptAudit.Script

/-! ## Counting brackets -/

/-- Where the next character stands. -/
def Place.next : Place → Char → Place
  | .escaped, _ => .inside
  | .inside, c => if c = '\\' then .escaped else if c = '"' then .outside else .inside
  | .outside, c => if c = '"' then .inside else .outside

/-- What a character counts. -/
def Place.weight : Place → Char → Int
  | .outside, c => if c = '{' || c = '[' then 1 else if c = '}' || c = ']' then -1 else 0
  | _, _ => 0

/-- Where the character behind a text stands. -/
def Place.after (place : Place) (t : Text) : Place := t.foldl Place.next place

theorem balance_cons (place : Place) (c : Char) (cs : Text) :
    balance place (c :: cs) = place.weight c + balance (place.next c) cs := by
  cases place with
  | escaped => simp [balance, Place.weight, Place.next]
  | inside =>
    simp only [balance, Place.weight, Place.next]
    split
    · simp
    · split <;> simp
  | outside =>
    simp only [balance, Place.weight, Place.next]
    split
    · next hc => subst hc; simp
    · split
      · omega
      · split <;> omega

theorem Place.after_append (place : Place) (t s : Text) :
    place.after (t ++ s) = (place.after t).after s := List.foldl_append

/-- The count goes on from place to place. -/
theorem balance_append (place : Place) (t s : Text) :
    balance place (t ++ s) = balance place t + balance (place.after t) s := by
  induction t generalizing place with
  | nil => simp [balance, Place.after]
  | cons c t ih =>
    rw [List.cons_append, balance_cons, balance_cons, ih, Int.add_assoc]
    rfl

/-- The characters that brackets and strings are told by, outside of strings. -/
def marks : List Char := ['"', '{', '}', '[', ']']

/-- What holds no mark is passed over. -/
theorem after_outside_eq {t : Text} (h : ∀ c ∈ t, c ∉ marks) :
    Place.outside.after t = .outside ∧ balance .outside t = 0 := by
  induction t with
  | nil => exact ⟨rfl, rfl⟩
  | cons c t ih =>
    obtain ⟨hc, ht⟩ := List.forall_mem_cons.1 h
    simp only [marks, List.mem_cons, List.not_mem_nil, or_false, not_or] at hc
    obtain ⟨hquote, hopen, hclose, hopen', hclose'⟩ := hc
    have hnext : Place.outside.next c = .outside := if_neg hquote
    have hweight : Place.outside.weight c = 0 := by simp [Place.weight, *]
    rw [balance_cons, hweight, hnext, (ih ht).2]
    refine ⟨?_, rfl⟩
    show (Place.outside.next c).after t = _
    rw [hnext, (ih ht).1]

theorem notMem_marks_of_isBlank {c : Char} (h : isBlank c = true) : c ∉ marks := by
  intro hc
  have hmarks : ∀ c ∈ marks, isBlank c = false := Text.forall_mem_of_all (by decide)
  rw [hmarks c hc] at h
  exact Bool.false_ne_true h

/-- The brackets that open an object or an array. -/
def IsOpening (c : Char) : Prop := c = '{' ∨ c = '['

/-- The brackets that close one. -/
def IsClosing (c : Char) : Prop := c = '}' ∨ c = ']'

theorem after_opening {c : Char} (hc : IsOpening c) (t : Text) :
    Place.outside.after (c :: t) = Place.outside.after t ∧
      balance .outside (c :: t) = 1 + balance .outside t := by
  rw [balance_cons]
  rcases hc with rfl | rfl <;> exact ⟨rfl, rfl⟩

theorem after_closing {c : Char} (hc : IsClosing c) :
    Place.outside.after [c] = .outside ∧ balance .outside [c] = -1 := by
  rcases hc with rfl | rfl <;> exact ⟨rfl, rfl⟩

/-! ## Line ends -/

/-- The line ends of a text stand outside of strings, with a count of at least `low` before them. -/
def BreaksAbove (low : Int) (t : Text) : Prop :=
  ∀ u b v, t = u ++ b :: v → isBreak b = true →
    Place.outside.after u = .outside ∧ low ≤ balance .outside u

namespace BreaksAbove

variable {low : Int} {s t : Text}

theorem of_isBreak_eq_false (h : ∀ c ∈ t, isBreak c = false) : BreaksAbove low t := by
  rintro u b v rfl hb
  rw [h b (List.mem_append_right u List.mem_cons_self)] at hb
  cases hb

variable (hs : Place.outside.after s = .outside)
include hs

/-- The count goes on from the first text to the second one. -/
theorem append (hbreaks : BreaksAbove low s) (ht : BreaksAbove (low - balance .outside s) t) :
    BreaksAbove low (s ++ t) := by
  intro u b v heq hb
  rcases Text.append_eq_append_cons heq with ⟨right, hs', -⟩ | ⟨left, rfl, ht'⟩
  · exact hbreaks u b right hs' hb
  · obtain ⟨hafter, hle⟩ := ht left b v ht' hb
    rw [Place.after_append, balance_append, hs, hafter]
    exact ⟨rfl, by omega⟩

theorem of_append (h : BreaksAbove low (s ++ t)) : BreaksAbove (low - balance .outside s) t := by
  rintro u b v rfl hb
  obtain ⟨hafter, hle⟩ := h (s ++ u) b v (List.append_assoc s u _).symm hb
  rw [Place.after_append, hs] at hafter
  rw [balance_append, hs] at hle
  exact ⟨hafter, by omega⟩

end BreaksAbove

/-! ## Closed texts -/

/-- A text whose brackets balance and whose line ends stand outside of strings, where no more
brackets have been closed than opened. -/
structure Closed (t : Text) : Prop where
  after_eq : Place.outside.after t = .outside
  balance_eq : balance .outside t = 0
  breaksAbove : BreaksAbove 0 t

namespace Closed

variable {s t : Text}

/-- What is not marked is closed. -/
theorem of_notMem_marks (h : ∀ c ∈ t, c ∉ marks) : Closed t where
  after_eq := (after_outside_eq h).1
  balance_eq := (after_outside_eq h).2
  breaksAbove := by
    rintro u b v rfl -
    obtain ⟨hafter, hbalance⟩ := after_outside_eq fun c hc => h c (List.mem_append_left _ hc)
    exact ⟨hafter, Int.le_of_eq hbalance.symm⟩

/-- One closed text may follow the other. -/
theorem append (hs : Closed s) (ht : Closed t) : Closed (s ++ t) where
  after_eq := by rw [Place.after_append, hs.after_eq, ht.after_eq]
  balance_eq := by rw [balance_append, hs.after_eq, hs.balance_eq, ht.balance_eq]; rfl
  breaksAbove := .append hs.after_eq hs.breaksAbove (by rw [hs.balance_eq]; exact ht.breaksAbove)

variable {first last : Char} (hfirst : IsOpening first) (hlast : IsClosing last)
include hfirst hlast

/-- The line ends between brackets stand where more brackets have been opened than closed. -/
theorem breaksAbove_enclosed (ht : Closed t) : BreaksAbove 1 (first :: (t ++ [last])) := by
  have hopen : ∀ c ∈ [first], isBreak c = false := by
    rcases hfirst with rfl | rfl <;> exact List.forall_mem_singleton.2 (by decide)
  have hclose : ∀ c ∈ [last], isBreak c = false := by
    rcases hlast with rfl | rfl <;> exact List.forall_mem_singleton.2 (by decide)
  refine .append (s := [first]) (after_opening hfirst []).1 (.of_isBreak_eq_false hopen) ?_
  rw [(after_opening hfirst []).2]
  exact .append ht.after_eq ht.breaksAbove (.of_isBreak_eq_false hclose)

/-- Brackets around a closed text make a closed text. -/
theorem enclosed (ht : Closed t) : Closed (first :: (t ++ [last])) where
  after_eq := by
    rw [(after_opening hfirst _).1, Place.after_append, ht.after_eq, (after_closing hlast).1]
  balance_eq := by
    rw [(after_opening hfirst _).2, balance_append, ht.after_eq, ht.balance_eq,
      (after_closing hlast).2]
    rfl
  breaksAbove := by
    intro u b v heq hb
    obtain ⟨hafter, hle⟩ := ht.breaksAbove_enclosed hfirst hlast u b v heq hb
    exact ⟨hafter, by omega⟩

end Closed

/-! ## What JSON is made of -/

/-- Inside of a string only quotation marks and backslashes matter. -/
theorem after_inside_append {u : Text} (hu : ∀ c ∈ u, c ≠ '"' ∧ c ≠ '\\') (t : Text) :
    Place.inside.after (u ++ t) = Place.inside.after t ∧
      balance .inside (u ++ t) = balance .inside t := by
  induction u with
  | nil => exact ⟨rfl, rfl⟩
  | cons c u ih =>
    obtain ⟨⟨hquote, hescape⟩, hu⟩ := List.forall_mem_cons.1 hu
    obtain ⟨hafter, hbalance⟩ := ih hu
    have hnext : Place.inside.next c = .inside := by rw [Place.next, if_neg hescape, if_neg hquote]
    rw [List.cons_append, balance_cons, hnext, hbalance, ← hafter]
    refine ⟨?_, Int.zero_add _⟩
    show (Place.inside.next c).after (u ++ t) = _
    rw [hnext]

/-- A string goes on up to its closing quotation mark, and nothing in it counts. -/
theorem after_inside_eq {t : Text} (h : Json.IsInside t) :
    Place.inside.after t = .inside ∧ balance .inside t = 0 := by
  have hpair (c : Char) (t : Text) : balance .inside ('\\' :: c :: t) = balance .inside t := by
    rw [balance_cons, balance_cons]
    exact (Int.zero_add _).trans (Int.zero_add _)
  induction h with
  | nil => exact ⟨rfl, rfl⟩
  | @char c t hquote hescape _ _ _ ih =>
    obtain ⟨hafter, hbalance⟩ :=
      after_inside_append (List.forall_mem_singleton.2 ⟨hquote, hescape⟩) t
    exact ⟨hafter.trans ih.1, hbalance.trans ih.2⟩
  | @escape c t _ _ ih => exact ⟨ih.1, (hpair c t).trans ih.2⟩
  | @unicode ds t _ hds _ ih =>
    have hplain : ∀ d ∈ ds, d ≠ '"' ∧ d ≠ '\\' := fun d hd =>
      have hdigit := Json.isAlphanum_of_isSome_hexDigit? (hds d hd)
      ⟨ne_of_isAlphanum hdigit (by decide), ne_of_isAlphanum hdigit (by decide)⟩
    obtain ⟨hafter, hbalance⟩ := after_inside_append hplain t
    exact ⟨hafter.trans ih.1, (hpair 'u' _).trans (hbalance.trans ih.2)⟩

theorem closed_of_isString {t : Text} (h : Json.IsString t) : Closed t := by
  obtain ⟨inside, rfl, hinside⟩ := h
  obtain ⟨hafter, hbalance⟩ := after_inside_eq hinside
  have hbreak : ∀ c ∈ '"' :: (inside ++ ['"']), isBreak c = false :=
    List.forall_mem_cons.2 ⟨by decide, List.forall_mem_append.2
      ⟨Json.isBreak_eq_false_of_isInside hinside, List.forall_mem_singleton.2 (by decide)⟩⟩
  refine ⟨?_, ?_, .of_isBreak_eq_false hbreak⟩
  · show Place.inside.after (inside ++ ['"']) = _
    rw [Place.after_append, hafter]
    rfl
  · rw [balance_cons]
    show 0 + balance .inside (inside ++ ['"']) = 0
    rw [balance_append, hafter, hbalance]
    rfl

theorem closed_of_isGap {t : Text} (h : Json.IsGap t) : Closed t := by
  refine .of_notMem_marks fun c hc hmark => ?_
  have hmarks : ∀ c ∈ marks, Json.isSpace c = false := Text.forall_mem_of_all (by decide)
  exact Bool.false_ne_true ((hmarks c hmark).symm.trans (h c hc))

theorem notMem_marks_of_mem_words {t : Text} (h : t ∈ Json.words) : ∀ c ∈ t, c ∉ marks := by
  have hwords : ∀ t ∈ Json.words, t.all (fun c => decide (c ∉ marks)) = true := by decide
  exact Text.forall_mem_of_all (hwords t h)

theorem notMem_marks_of_isNumber {t : Text} (h : Json.IsNumber t) : ∀ c ∈ t, c ∉ marks := by
  intro c hc hmark
  have hmarks : ∀ c ∈ marks, c.isDigit = false ∧ c ∉ Json.numberMarks :=
    Text.forall_mem_of_all (by decide)
  obtain ⟨hdigit, hmem⟩ := hmarks c hmark
  rcases Json.isDigit_or_mem_of_isNumber h c hc with hc | hc
  · exact Bool.false_ne_true (hdigit.symm.trans hc)
  · exact hmem hc

/-- What is written by the grammar of JSON is closed. -/
theorem closed_of_isPart {part : Json.Part} {t : Text} (h : Json.IsPart part t) : Closed t := by
  have hmark {c : Char} {t : Text} (hc : c ∉ marks) (ht : Closed t) : Closed (c :: t) :=
    .append (s := [c]) (.of_notMem_marks (List.forall_mem_singleton.2 hc)) ht
  induction h with
  | word h => exact .of_notMem_marks (notMem_marks_of_mem_words h)
  | number h => exact .of_notMem_marks (notMem_marks_of_isNumber h)
  | string h => exact closed_of_isString h
  | noItems hs => exact (closed_of_isGap hs).enclosed (Or.inr rfl) (Or.inr rfl)
  | array _ ih => exact ih.enclosed (Or.inr rfl) (Or.inr rfl)
  | noFields hs => exact (closed_of_isGap hs).enclosed (Or.inl rfl) (Or.inl rfl)
  | object _ ih => exact ih.enclosed (Or.inl rfl) (Or.inl rfl)
  | element hs _ hs' ih => exact (closed_of_isGap hs).append (ih.append (closed_of_isGap hs'))
  | oneItem _ ih => exact ih
  | moreItems _ _ iht ihts => exact iht.append (hmark (by decide) ihts)
  | field hs hname hs' _ ih =>
    have hvalue := (closed_of_isGap hs').append (hmark (c := ':') (by decide) ih)
    exact (closed_of_isGap hs).append ((closed_of_isString hname).append hvalue)
  | oneField _ ih => exact ih
  | moreFields _ _ iht ihts => exact iht.append (hmark (by decide) ihts)

/-- What begins with a bracket is closed between its first bracket and its last one. -/
theorem exists_enclosed {t : Text} (h : Json.IsPart .value t) (hopen : ∃ c ∈ t.head?, IsOpening c) :
    ∃ first inner last, t = first :: (inner ++ [last]) ∧ IsOpening first ∧ IsClosing last ∧
      Closed inner := by
  obtain ⟨c, hc, hopen⟩ := hopen
  have hmark : c ∈ marks := by rcases hopen with rfl | rfl <;> decide
  cases h with
  | word h => exact absurd hmark (notMem_marks_of_mem_words h c (List.mem_of_mem_head? hc))
  | number h => exact absurd hmark (notMem_marks_of_isNumber h c (List.mem_of_mem_head? hc))
  | string h =>
    obtain ⟨inside, rfl, -⟩ := h
    obtain rfl := Option.some.inj hc
    exact absurd hopen (by simp [IsOpening])
  | noItems hs => exact ⟨_, _, _, rfl, Or.inr rfl, Or.inr rfl, closed_of_isGap hs⟩
  | array items => exact ⟨_, _, _, rfl, Or.inr rfl, Or.inr rfl, closed_of_isPart items⟩
  | noFields hs => exact ⟨_, _, _, rfl, Or.inl rfl, Or.inl rfl, closed_of_isGap hs⟩
  | object fields => exact ⟨_, _, _, rfl, Or.inl rfl, Or.inl rfl, closed_of_isPart fields⟩

/-! ## Lines of a body -/

/-- More lines do not matter to lines that balance. -/
theorem balanced?_append {depth : Int} {ls body : List Text} (h : balanced? depth ls = some body)
    (more : List Text) : balanced? depth (ls ++ more) = some body := by
  induction ls generalizing depth body with
  | nil => simp [balanced?] at h
  | cons l ls ih =>
    rw [balanced?] at h
    rw [List.cons_append, balanced?]
    split at h
    · next hle => rw [if_pos hle, h]
    · next hlt =>
      obtain ⟨body, hbody, rfl⟩ := Option.map_eq_some_iff.1 h
      rw [if_neg hlt, ih hbody]
      rfl

/-- Lines balance where their text ends, if they do not at any line end before. -/
theorem balanced?_lines {depth : Int} {t : Text} (hne : t ≠ []) (hbreaks : BreaksAbove (1 - depth) t)
    (hend : depth + balance .outside t ≤ 0) :
    balanced? depth (Text.lines t) = some (Text.lines t) := by
  induction hlength : t.length using Nat.strong_induction_on generalizing depth t with
  | _ length ih =>
    subst hlength
    obtain ⟨l, lineEnd, rest, rfl, hlines, -, hends, hlast⟩ := Text.exists_lines_eq_cons hne
    rw [hlines, balanced?]
    cases lineEnd with
    | nil =>
      obtain ⟨-, rfl⟩ := hlast rfl
      rw [List.append_nil, List.append_nil] at hend
      rw [if_pos hend]
      rfl
    | cons b lineEnd =>
      obtain ⟨hplace, hle⟩ := hbreaks l b (lineEnd ++ rest) rfl (hends b List.mem_cons_self)
      -- counting goes on behind the line end as if there was none
      obtain ⟨hskip, hzero⟩ := after_outside_eq fun c hc =>
        notMem_marks_of_isBlank (isBlank_of_isBreak (hends c hc))
      have hafter : Place.outside.after (l ++ b :: lineEnd) = .outside := by
        rw [Place.after_append, hplace, hskip]
      have hbalance : balance .outside (l ++ b :: lineEnd) = balance .outside l := by
        rw [balance_append, hplace, hzero, Int.add_zero]
      rw [← List.append_assoc] at hbreaks hend
      have hrest := hbreaks.of_append hafter
      rw [balance_append, hafter, hbalance, ← Int.add_assoc] at hend
      rw [hbalance, Int.sub_sub] at hrest
      have hnil : rest ≠ [] := by
        rintro rfl
        rw [balance, Int.add_zero] at hend
        omega
      have hlt : rest.length < (l ++ (b :: lineEnd ++ rest)).length := by
        simp only [List.length_append, List.length_cons]
        omega
      rw [if_neg (by omega), ih rest.length hlt hnil hrest hend rfl]
      rfl

/-! ## Where a body begins -/

theorem body?_of_drop_nil {ls : List Text} (h : ls.drop (ls.takeWhile isIdle).length = []) :
    body? ls = none := by
  simp only [body?, h]

/-- A body begins with a bracket. -/
theorem body?_of_drop_cons {ls : List Text} {l : Text} {rest : List Text}
    (h : ls.drop (ls.takeWhile isIdle).length = l :: rest) :
    body? ls =
      if (Text.trim l).head? = some '{' ∨ (Text.trim l).head? = some '[' then
        (balanced? 0 (l :: rest)).map fun b => ((ls.takeWhile isIdle).length, b)
      else none := by
  simp only [body?, h]
  split
  · next heq => rw [heq, List.head?_cons, if_pos (Or.inl rfl)]
  · next heq => rw [heq, List.head?_cons, if_pos (Or.inr rfl)]
  · next hopen hopen' =>
    rw [if_neg]
    rintro (hhead | hhead)
    · obtain ⟨rest, hrest⟩ := List.head?_eq_some_iff.1 hhead
      exact hopen rest hrest
    · obtain ⟨rest, hrest⟩ := List.head?_eq_some_iff.1 hhead
      exact hopen' rest hrest

/-- Behind lines that are passed over, the lines that balance are the body. -/
theorem body?_append {skip rest : List Text} {l : Text} (hskip : ∀ l ∈ skip, isIdle l = true)
    (hopen : ∃ c ∈ (Text.trim l).head?, IsOpening c) :
    body? (skip ++ l :: rest) = (balanced? 0 (l :: rest)).map fun b => (skip.length, b) := by
  obtain ⟨c, hc, hopen⟩ := hopen
  obtain ⟨t, ht⟩ := List.head?_eq_some_iff.1 hc
  have hl : isIdle l = false := by
    rw [isIdle, ht]
    rcases hopen with rfl | rfl <;> rfl
  have htake : (skip ++ l :: rest).takeWhile isIdle = skip := by
    rw [List.takeWhile_append_of_pos hskip, List.takeWhile_cons_of_neg (by simp [hl]),
      List.append_nil]
  have hdrop : (skip ++ l :: rest).drop ((skip ++ l :: rest).takeWhile isIdle).length =
      l :: rest := by
    rw [htake, List.drop_left]
  rw [body?_of_drop_cons hdrop, htake, if_pos]
  rcases hopen with rfl | rfl
  · exact Or.inl hc
  · exact Or.inr hc

/-- The first line of a text that begins with a bracket behind blanks. -/
theorem exists_lines_eq_opening {lead : Text}
    (hlead : ∀ c ∈ lead, isBlank c = true ∧ isBreak c = false) {first : Char}
    (hfirst : IsOpening first) (t : Text) :
    ∃ l ls, Text.lines (lead ++ first :: t) = l :: ls ∧ ∃ c ∈ (Text.trim l).head?, IsOpening c := by
  have hplain : isBreak first = false ∧ isBlank first = false := by
    rcases hfirst with rfl | rfl <;> decide
  have hfront : ∀ c ∈ lead ++ [first], isBreak c = false :=
    List.forall_mem_append.2 ⟨fun c hc => (hlead c hc).2, List.forall_mem_singleton.2 hplain.1⟩
  have hlines := Text.lines_append_of_forall (by simp) hfront t
  rw [List.append_assoc, List.singleton_append] at hlines
  refine ⟨_, _, hlines, first, ?_, hfirst⟩
  have hblank : Text.trimLeft lead = [] :=
    Text.trimLeft_of_blank (List.all_eq_true.2 fun c hc => (hlead c hc).1)
  rw [List.append_assoc, List.singleton_append, Text.trim, Text.trimLeft_append_cons hplain.2,
    hblank, Text.trimRight_append_cons hplain.2]
  rfl

/-- A line that is a command is not passed over. -/
theorem isIdle_eq_false_of_ofLine? {l : Text} {n : Nat} {c : Command}
    (h : Command.ofLine? (Text.trim l) n = some c) : isIdle l = false := by
  obtain ⟨k, hk, -⟩ := Option.bind_eq_some_iff.1 h
  rw [Keyword.ofText?_eq_some_iff] at hk
  have hname : k.name ≠ [] := by cases k <;> decide
  have hrun : (Text.trim l).takeWhile isWord ≠ [] := fun hnil => by
    rw [hnil, List.map_nil, eq_comm, List.map_eq_nil_iff] at hk
    exact hname hk
  rw [isIdle, isComment]
  cases ht : Text.trim l with
  | nil => exact absurd (by rw [ht]; rfl) hrun
  | cons d t =>
    have hd : isWord d = true := by
      by_contra hd
      exact hrun (by rw [ht, List.takeWhile_cons_of_neg hd])
    have hne : d ≠ '/' ∧ d ≠ '-' := by
      constructor <;> (rintro rfl; exact absurd hd (by decide))
    simp [List.isPrefixOf, hne.1.symm, hne.2.symm]

/-! ## Bodies that hold JSON -/

section

variable {value lead tail : Text} (hvalue : Json.IsPart .value value)
  (hopen : value.head? = some '{' ∨ value.head? = some '[')
  (hlead : ∀ c ∈ lead, isBlank c = true ∧ isBreak c = false)
  (htail : ∀ c ∈ tail, isBreak c = false) (hcount : balance .outside tail ≤ 0)
include hvalue hopen hlead htail hcount

/-- The lines of an object or an array balance on the last one. -/
theorem balanced?_json : balanced? 0 (Text.lines (lead ++ (value ++ tail))) =
    some (Text.lines (lead ++ (value ++ tail))) := by
  obtain ⟨first, inner, last, rfl, hfirst, hlast, hinner⟩ := exists_enclosed hvalue <| by
    rcases hopen with h | h
    · exact ⟨_, h, Or.inl rfl⟩
    · exact ⟨_, h, Or.inr rfl⟩
  obtain ⟨hafter, hzero⟩ := after_outside_eq fun c hc => notMem_marks_of_isBlank (hlead c hc).1
  have hclosed := hinner.enclosed hfirst hlast
  refine balanced?_lines (by simp) ?_ ?_
  · -- all line ends stand between the brackets
    refine .append hafter (.of_isBreak_eq_false fun c hc => (hlead c hc).2) ?_
    rw [hzero]
    exact .append hclosed.after_eq (hinner.breaksAbove_enclosed hfirst hlast)
      (.of_isBreak_eq_false htail)
  · rw [balance_append, balance_append, hafter, hzero, hclosed.after_eq, hclosed.balance_eq]
    omega

/-- **Bodies that hold JSON.** An object or an array behind a command, from the line on which it
begins to the line on which it ends, is the body of the command, whatever its strings hold, and
reading goes on behind it. In front of it stand lines that are passed over, and blanks; behind it, on
its last line, what opens no more brackets than it closes, blanks for one. The first ones of its lines
alone are no body, and reading goes on behind the command. -/
theorem body_of_json {js : List Text} (hjs : Text.lines (lead ++ (value ++ tail)) = js)
    {skip : List Text} (hskip : ∀ l ∈ skip, isIdle l = true) (pre post : List Text) (n : Nat)
    {l : Text} {c : Command} (hc : Command.ofLine? (Text.trim l) (n + pre.length) = some c) :
    (body? ((pre ++ l :: (skip ++ (js ++ post))).drop (pre.length + 1)) = some (skip.length, js) ∧
      commandsFrom 0 ((numbered n (pre ++ l :: (skip ++ (js ++ post)))).drop pre.length) =
        { c with body := some (Text.joinWith ['\n'] js) } ::
          commandsFrom 0 (numbered (n + pre.length + 1 + (skip ++ js).length) post)) ∧
    ∀ i, 0 < i → i < js.length →
      body? ((pre ++ l :: (skip ++ js.take i)).drop (pre.length + 1)) = none ∧
        commandsFrom 0 ((numbered n (pre ++ l :: (skip ++ js.take i))).drop pre.length) =
          c :: commandsFrom 0 (numbered (n + pre.length + 1) (skip ++ js.take i)) := by
  have hidle := isIdle_eq_false_of_ofLine? hc
  have hall := balanced?_json hvalue hopen hlead htail hcount
  obtain ⟨first, more, hfirst, hopens⟩ : ∃ first more, Text.lines (lead ++ (value ++ tail)) =
      first :: more ∧ ∃ c ∈ (Text.trim first).head?, IsOpening c := by
    rcases hopen with h | h
    · obtain ⟨t, rfl⟩ := List.head?_eq_some_iff.1 h
      exact exists_lines_eq_opening hlead (Or.inl rfl) (t ++ tail)
    · obtain ⟨t, rfl⟩ := List.head?_eq_some_iff.1 h
      exact exists_lines_eq_opening hlead (Or.inr rfl) (t ++ tail)
  rw [hfirst] at hall hjs
  subst hjs
  have hbehind (behind : List Text) : (pre ++ l :: behind).drop (pre.length + 1) = behind := by
    simp
  have hnumbered (behind : List Text) : (numbered n (pre ++ l :: behind)).drop pre.length =
      (n + pre.length, l) :: numbered (n + pre.length + 1) behind := by
    rw [drop_numbered, List.drop_left]
    rfl
  refine ⟨?_, fun i hpos hlt => ?_⟩
  · have hbody : body? (skip ++ (first :: more ++ post)) = some (skip.length, first :: more) := by
      rw [List.cons_append, body?_append hskip hopens, ← List.cons_append, balanced?_append hall]
      rfl
    refine ⟨by rw [hbehind, hbody], ?_⟩
    rw [hnumbered, commandsFrom_full _ hidle hc (by rw [map_snd_numbered, hbody]), drop_numbered,
      ← List.append_assoc, ← List.length_append, List.drop_left]
  · have hnone : balanced? 0 ((first :: more).take i) = none := by
      refine Option.eq_none_iff_forall_ne_some.2 fun body hbody => ?_
      -- otherwise all lines would balance where these do
      have h := balanced?_append hbody ((first :: more).drop i)
      rw [List.take_append_drop, hall] at h
      obtain ⟨-, -, rest, -, hrest⟩ := balanced?_eq_some hbody
      have hlength := congrArg List.length hrest
      rw [← Option.some.inj h, List.length_append, List.length_take] at hlength
      omega
    have hbody : body? (skip ++ (first :: more).take i) = none := by
      obtain ⟨i, rfl⟩ := Nat.exists_eq_succ_of_ne_zero (Nat.ne_of_gt hpos)
      rw [List.take_succ_cons] at hnone ⊢
      rw [body?_append hskip hopens, hnone]
      rfl
    refine ⟨by rw [hbehind, hbody], ?_⟩
    rw [hnumbered, commandsFrom_bare _ hidle hc (by rw [map_snd_numbered, hbody])]

end

/-- A body on two lines, with brackets and an escaped quotation mark in its strings. -/
theorem body_of_brackets_in_strings :
    ∃ c, Command.ofLine? "Post /a" 1 = some c ∧
      commandsFrom 0 (numbered 1 ["Post /a", "", " \x7b\"]\\\"\": [-1.5e3,", "\"[\"]\x7d", "Get /b"]) =
        { c with body := some " \x7b\"]\\\"\": [-1.5e3,\n\"[\"]\x7d".toList } ::
          commandsFrom 0 (numbered 5 ["Get /b"]) ∧
      commandsFrom 0 (numbered 1 ["Post /a", "", " \x7b\"]\\\"\": [-1.5e3,"]) =
        c :: commandsFrom 0 (numbered 2 ["", " \x7b\"]\\\"\": [-1.5e3,"]) := by
  have hname : Json.IsString "\"]\\\"\"" :=
    ⟨"]\\\"", rfl, .char (by decide) (by decide) (by decide) (by decide) (.escape rfl .nil)⟩
  have hitem : Json.IsString "\"[\"" :=
    ⟨"[", rfl, .char (by decide) (by decide) (by decide) (by decide) .nil⟩
  have hnumber : Json.IsNumber "-1.5e3" :=
    ⟨"-", "1", ".5", "e3", rfl, by decide, by decide, by decide, Or.inr ⟨"5", rfl, by decide⟩,
      Or.inr ⟨'e', [], "3", rfl, by decide, by decide, by decide⟩⟩
  have hnone : Json.IsGap [] := by decide
  have hspace : Json.IsGap [' '] := by decide
  have hfeed : Json.IsGap ['\n'] := by decide
  have harray := Json.IsPart.array (.moreItems (.element hnone (.number hnumber) hnone)
    (.oneItem (.element hfeed (.string hitem) hnone)))
  have hvalue := Json.IsPart.object
    (.oneField (.field hnone hname hnone (.element hspace harray hnone)))
  have hlead : ∀ c ∈ [' '], isBlank c = true ∧ isBreak c = false :=
    List.forall_mem_singleton.2 (by decide)
  have hskip : ∀ l ∈ [([] : Text)], isIdle l = true := by decide
  obtain ⟨c, hc⟩ : ∃ c, Command.ofLine? (Text.trim "Post /a") 1 = some c := ⟨_, rfl⟩
  obtain ⟨⟨-, hall⟩, hpart⟩ := body_of_json hvalue (Or.inl rfl) hlead (List.forall_mem_nil _)
    (Int.le_refl 0) rfl hskip [] ["Get /b".toList] 1 hc
  exact ⟨c, hc, hall, (hpart 1 (by decide) (by decide)).2⟩

end ScriptAudit.Script
