import ScriptAudit.Proofs.Json.Layout
import ScriptAudit.Proofs.Text.Search

/-!
# What has been read, as it was laid out

Reading goes from a text to a value. This is the way back: a text from which a value has been read
is cut into the pieces that it was read from.

* `eq_of_string?_append` — a string ends in one way only.
* `value?_cases`, `items?_cases`, `members?_cases` — all that one step of reading can do.
* `yields_of_reading` — each step leaves a shorter text.
* `exists_layout_of_read?` — the layout of an array of objects that has been read.
-/

namespace ScriptAudit.Json

/-! ## Strings -/

/-- Whether a string that is read ends at a quotation mark, and what follows does not matter. -/
def ClosesAtMark (half : Option Nat) (t : Text) : Prop :=
  ∀ s rest, string? half t = some (s, rest) → ∃ u, t = u ++ '"' :: rest ∧
    ∀ rest', string? half (u ++ '"' :: rest') = some (s, rest')

theorem ClosesAtMark.step {half half' : Option Nat} {x t : Text} {g : Text → Text}
    (hstep : ∀ t, string? half (x ++ t) = (string? half' t).map (Prod.map g id))
    (ht : ClosesAtMark half' t) : ClosesAtMark half (x ++ t) := by
  intro s rest h
  rw [hstep, Option.map_eq_some_iff] at h
  obtain ⟨⟨s', rest'⟩, hread, h⟩ := h
  obtain ⟨rfl, rfl⟩ : g s' = s ∧ rest' = rest := by simpa using h
  obtain ⟨u, rfl, hu⟩ := ht _ _ hread
  refine ⟨x ++ u, by rw [List.append_assoc], fun rest => ?_⟩
  rw [List.append_assoc, hstep, hu]
  rfl

/-- The code of a character goes on with what follows. -/
theorem closesAtMark_code {half : Option Nat} {a b c d : Char} {t : Text}
    (hhalf : ∀ n, ClosesAtMark (some n) t) (ht : ClosesAtMark none t) :
    ClosesAtMark half (['\\', 'u', a, b, c, d] ++ t) := by
  cases hn : hexValue? [a, b, c, d] with
  | none =>
    intro s rest h
    simp [string?, hn] at h
  | some n =>
    by_cases hhigh : 0xd800 ≤ n ∧ n < 0xdc00
    · refine (hhalf n).step (g := (loneHalf half ++ ·)) fun t => ?_
      simp only [List.cons_append, List.nil_append, string?, hn, Option.bind_eq_bind,
        Option.bind_some]
      cases string? (some n) t <;> simp [hhigh, Prod.map]
    · by_cases hlow : 0xdc00 ≤ n ∧ n < 0xe000
      · cases half with
        | some high =>
          refine ht.step
            (g := (Char.ofNat (0x10000 + (high - 0xd800) * 0x400 + (n - 0xdc00)) :: ·)) fun t => ?_
          simp only [List.cons_append, List.nil_append, string?, hn]
          cases string? none t <;> simp [hhigh, hlow, Prod.map]
        | none =>
          refine ht.step (g := ('\ufffd' :: ·)) fun t => ?_
          simp only [List.cons_append, List.nil_append, string?, hn]
          cases string? none t <;> simp [hhigh, hlow, Prod.map]
      · refine ht.step (g := (loneHalf half ++ Char.ofNat n :: ·)) fun t => ?_
        simp only [List.cons_append, List.nil_append, string?, hn]
        cases string? none t <;> simp [hhigh, hlow, Prod.map]

theorem closesAtMark (half : Option Nat) (t : Text) : ClosesAtMark half t := by
  induction half, t using string?.induct with
  | case1 half t =>
    intro s rest h
    obtain ⟨rfl, rfl⟩ : loneHalf half = s ∧ t = rest := by simpa [string?] using h
    exact ⟨[], rfl, fun _ => rfl⟩
  | case2 half a b c d t ihHalf ih => exact closesAtMark_code ihHalf ih
  | case3 half e t hne ih =>
    cases he : simpleEscape? e with
    | none =>
      intro s rest h
      rw [string?, he] at h
      · cases h
      · exact hne
    | some c =>
      refine ih.step (x := ['\\', e]) (g := (loneHalf half ++ c :: ·)) fun t => ?_
      rw [List.cons_append, List.singleton_append, string?, he]
      · cases string? none t <;> rfl
      · rintro _ _ _ _ _ rfl -
        cases he
  | case4 half c t hquote hcode hescape hbad =>
    intro s rest h
    rw [string?, if_pos hbad] at h
    · cases h
    · exact hquote
    · exact hcode
    · exact hescape
  | case5 half c t hquote hcode hescape hgood ih =>
    have hslash : c ≠ '\\' := by
      rintro rfl
      exact hgood (by simp)
    refine ih.step (x := [c]) (g := (loneHalf half ++ c :: ·)) fun t => ?_
    rw [List.singleton_append, string?, if_neg hgood]
    · cases string? none t <;> rfl
    · exact hquote
    · exact fun _ _ _ _ _ hc _ => hslash hc
    · exact fun _ _ hc _ => hslash hc
  | case6 half =>
    intro s rest h
    cases half <;> cases h

/-- A string ends in one way only. -/
theorem eq_of_string?_append {u u' s s' t t' : Text}
    (h : ∀ rest, string? none (u ++ '"' :: rest) = some (s, rest))
    (h' : ∀ rest, string? none (u' ++ '"' :: rest) = some (s', rest))
    (heq : u ++ '"' :: t = u' ++ '"' :: t') : u = u' ∧ s = s' ∧ t = t' := by
  have hread := (h t).symm.trans (heq ▸ h' t')
  obtain ⟨rfl, rfl⟩ : s = s' ∧ t = t' := by simpa using hread
  exact ⟨List.append_cancel_right heq, rfl, rfl⟩

/-! ## Words and numbers -/

/-- Whether a text begins with a character that is no blank and goes on to another text. -/
def Yields (t rest : Text) : Prop := ∃ c u, t = c :: (u ++ rest) ∧ isBlank c = false

namespace Yields

variable {t u rest : Text}

theorem suffix (h : Yields t rest) : rest <:+ t := by
  obtain ⟨c, u, rfl, -⟩ := h
  exact ⟨c :: u, rfl⟩

theorem of_suffix (h : Yields t u) (hrest : rest <:+ u) : Yields t rest := by
  obtain ⟨c, w, rfl, hc⟩ := h
  obtain ⟨w', rfl⟩ := hrest
  exact ⟨c, w ++ w', by rw [List.append_assoc], hc⟩

theorem cons {c : Char} (hc : isBlank c = false) (h : rest <:+ u) : Yields (c :: u) rest := by
  obtain ⟨w, rfl⟩ := h
  exact ⟨c, w, rfl, hc⟩

end Yields

theorem yields_of_number? {negative : Bool} {t rest : Text} {n : Number}
    (h : number? negative t = some (n, rest)) : Yields t rest := by
  cases t with
  | nil => cases h
  | cons c t =>
    have hdigit : c.isDigit = true := by
      by_contra hc
      rw [number?, List.takeWhile_cons_of_neg hc] at h
      cases h
    obtain ⟨k, rfl⟩ : ∃ k, t.drop k = rest := by
      rw [number?] at h
      generalize (if ((c :: t).takeWhile Char.isDigit).head? = some '0' then ['0']
        else (c :: t).takeWhile Char.isDigit) = whole at h
      extract_lets behind fraction behind' exponent behind'' value place at h
      rw [Option.ite_none_left_eq_some] at h
      obtain ⟨hwhole, h⟩ := h
      obtain ⟨i, hi⟩ : ∃ i, whole.length = i + 1 :=
        Nat.exists_eq_succ_of_ne_zero (by simpa using hwhole)
      obtain ⟨j, hj⟩ : ∃ j, behind' = t.drop j := by
        simp only [behind', behind, hi, List.drop_succ_cons]
        split
        · exact ⟨_, rfl⟩
        · exact ⟨_, List.drop_drop⟩
      refine ⟨j + exponent.length, ?_⟩
      rw [← List.drop_drop, ← hj]
      split at h
      · split at h
        · cases h
        · exact congrArg Prod.snd (Option.some.inj h)
      · exact congrArg Prod.snd (Option.some.inj h)
    exact ⟨c, t.take k, by rw [List.take_append_drop], isBlank_eq_false_of_isWord
      (isWord_of_isAlphanum (by simp [Char.isAlphanum, hdigit]))⟩

/-- A word or a number is no object and no array. -/
theorem yields_of_atom? {t rest : Text} {v : Json} (h : atom? t = some (v, rest)) :
    Yields t rest ∧ (∀ fields, v ≠ .obj fields) ∧ ∀ vs, v ≠ .arr vs := by
  have hpair {w : Json} {u : Text} (h : some (w, u) = some (v, rest)) : v = w ∧ rest = u := by
    cases h
    exact ⟨rfl, rfl⟩
  unfold atom? at h
  split at h
  · obtain ⟨rfl, rfl⟩ := hpair h
    exact ⟨⟨'n', ['u', 'l', 'l'], rfl, by decide⟩, nofun, nofun⟩
  · obtain ⟨rfl, rfl⟩ := hpair h
    exact ⟨⟨'t', ['r', 'u', 'e'], rfl, by decide⟩, nofun, nofun⟩
  · obtain ⟨rfl, rfl⟩ := hpair h
    exact ⟨⟨'f', ['a', 'l', 's', 'e'], rfl, by decide⟩, nofun, nofun⟩
  · obtain ⟨rfl, rfl⟩ := hpair h
    exact ⟨⟨'N', ['a', 'N'], rfl, by decide⟩, nofun, nofun⟩
  · split at h
    · next u hafter =>
      obtain ⟨rfl, rfl⟩ := hpair h
      rw [Text.eq_append_of_after? hafter]
      exact ⟨⟨'-', "Infinity".toList, rfl, by decide⟩, nofun, nofun⟩
    · obtain ⟨⟨n, u⟩, hn, h⟩ := Option.map_eq_some_iff.1 h
      obtain ⟨rfl, rfl⟩ := hpair (congrArg some h)
      obtain ⟨c, digits, rfl, -⟩ := yields_of_number? hn
      exact ⟨⟨'-', c :: digits, rfl, by decide⟩, nofun, nofun⟩
  · split at h
    · next u hafter =>
      obtain ⟨rfl, rfl⟩ := hpair h
      rw [Text.eq_append_of_after? hafter]
      exact ⟨⟨'I', "nfinity".toList, rfl, by decide⟩, nofun, nofun⟩
    · obtain ⟨⟨n, u⟩, hn, h⟩ := Option.map_eq_some_iff.1 h
      obtain ⟨rfl, rfl⟩ := hpair (congrArg some h)
      exact ⟨yields_of_number? hn, nofun, nofun⟩

/-! ## Steps of reading -/

/-- White space in front of a text. -/
theorem exists_gap (t : Text) : ∃ gap, IsGap gap ∧ t = gap ++ skipSpace t :=
  ⟨t.takeWhile isSpace, fun _ => List.mem_takeWhile_imp, List.takeWhile_append_dropWhile.symm⟩

variable {fuel : Nat} {t rest : Text} {v : Json}

/-- How a value is read. -/
theorem value?_cases (h : value? (fuel + 1) t = some (v, rest)) :
    (∃ u s, t = '"' :: u ∧ string? none u = some (s, rest) ∧ v = .str s) ∨
      (∃ u, t = '{' :: u ∧ ((skipSpace u = '}' :: rest ∧ v = .obj []) ∨
        members? fuel [] (skipSpace u) = some (v, rest))) ∨
      (∃ u, t = '[' :: u ∧ ((skipSpace u = ']' :: rest ∧ v = .arr []) ∨
        items? fuel [] (skipSpace u) = some (v, rest))) ∨
      atom? t = some (v, rest) := by
  unfold value? at h
  split at h
  · next heq => cases heq
  · next u heq =>
    obtain ⟨⟨s, u'⟩, hs, h⟩ := Option.bind_eq_some_iff.1 h
    cases h
    exact Or.inl ⟨u, s, rfl, hs, rfl⟩
  · next u heq =>
    cases heq
    split at h
    · next hempty =>
      cases h
      exact Or.inr (Or.inl ⟨u, rfl, Or.inl ⟨hempty, rfl⟩⟩)
    · exact Or.inr (Or.inl ⟨u, rfl, Or.inr h⟩)
  · next u heq =>
    cases heq
    split at h
    · next hempty =>
      cases h
      exact Or.inr (Or.inr (Or.inl ⟨u, rfl, Or.inl ⟨hempty, rfl⟩⟩))
    · exact Or.inr (Or.inr (Or.inl ⟨u, rfl, Or.inr h⟩))
  · exact Or.inr (Or.inr (Or.inr h))

/-- How an item is read. -/
theorem items?_cases {done : List Json} (h : items? (fuel + 1) done t = some (v, rest)) :
    ∃ w t', value? fuel t = some (w, t') ∧
      ((∃ u, skipSpace t' = ',' :: u ∧ items? fuel (w :: done) (skipSpace u) = some (v, rest)) ∨
        (skipSpace t' = ']' :: rest ∧ v = .arr (w :: done).reverse)) := by
  rw [items?] at h
  obtain ⟨⟨w, t'⟩, hw, h⟩ := Option.bind_eq_some_iff.1 h
  refine ⟨w, t', hw, ?_⟩
  dsimp only at h
  split at h
  · next u hnext => exact Or.inl ⟨u, hnext, h⟩
  · next u hend =>
    cases h
    exact Or.inr ⟨hend, rfl⟩
  · cases h

/-- How a field is read. -/
theorem members?_cases {done : List (Text × Json)}
    (h : members? (fuel + 1) done t = some (v, rest)) :
    ∃ u key t₁ t₂ w t₃, t = '"' :: u ∧ string? none u = some (key, t₁) ∧
      skipSpace t₁ = ':' :: t₂ ∧ value? fuel (skipSpace t₂) = some (w, t₃) ∧
      ((∃ u, skipSpace t₃ = ',' :: u ∧
          members? fuel (put key w done) (skipSpace u) = some (v, rest)) ∨
        (skipSpace t₃ = '}' :: rest ∧ v = .obj (put key w done))) := by
  unfold members? at h
  dsimp only at h
  split at h
  · next u =>
    obtain ⟨⟨key, t₁⟩, hkey, h⟩ := Option.bind_eq_some_iff.1 h
    dsimp only at h
    split at h
    · next t₂ hcolon =>
      obtain ⟨⟨w, t₃⟩, hw, h⟩ := Option.bind_eq_some_iff.1 h
      refine ⟨u, key, t₁, t₂, w, t₃, rfl, hkey, hcolon, hw, ?_⟩
      dsimp only at h
      split at h
      · next u hnext => exact Or.inl ⟨u, hnext, h⟩
      · next u hend =>
        cases h
        exact Or.inr ⟨hend, rfl⟩
      · cases h
    · cases h
  · cases h

theorem suffix_of_skipSpace {c : Char} {u : Text} (h : skipSpace t = c :: u) : u <:+ t :=
  (List.suffix_cons c u).trans (h ▸ List.dropWhile_suffix isSpace)

theorem suffix_of_string? {half : Option Nat} {s : Text} (h : string? half t = some (s, rest)) :
    rest <:+ t := by
  obtain ⟨u, rfl, -⟩ := closesAtMark half t s rest h
  exact (List.suffix_cons _ rest).trans (List.suffix_append u _)

/-- Reading goes on to a shorter text. -/
theorem yields_of_reading (fuel : Nat) :
    (∀ t v rest, value? fuel t = some (v, rest) → Yields t rest) ∧
      (∀ done t v rest, items? fuel done t = some (v, rest) → Yields t rest) ∧
      ∀ done t v rest, members? fuel done t = some (v, rest) → Yields t rest := by
  induction fuel with
  | zero => exact ⟨nofun, nofun, nofun⟩
  | succ fuel ih =>
    obtain ⟨hvalue, hitems, hmembers⟩ := ih
    have hskip (t : Text) : skipSpace t <:+ t := List.dropWhile_suffix isSpace
    refine ⟨fun t v rest h => ?_, fun done t v rest h => ?_, fun done t v rest h => ?_⟩
    · rcases value?_cases h with ⟨u, s, rfl, hs, -⟩ | ⟨u, rfl, ⟨hend, -⟩ | h⟩ |
        ⟨u, rfl, ⟨hend, -⟩ | h⟩ | h
      · exact .cons (by decide) (suffix_of_string? hs)
      · exact .cons (by decide) (suffix_of_skipSpace hend)
      · exact .cons (by decide) ((hmembers _ _ _ _ h).suffix.trans (hskip u))
      · exact .cons (by decide) (suffix_of_skipSpace hend)
      · exact .cons (by decide) ((hitems _ _ _ _ h).suffix.trans (hskip u))
      · exact (yields_of_atom? h).1
    · obtain ⟨w, t', hw, ⟨u, hnext, h⟩ | ⟨hend, -⟩⟩ := items?_cases h
      · exact (hvalue _ _ _ hw).of_suffix
          (((hitems _ _ _ _ h).suffix.trans (hskip u)).trans (suffix_of_skipSpace hnext))
      · exact (hvalue _ _ _ hw).of_suffix (suffix_of_skipSpace hend)
    · obtain ⟨u, key, t₁, t₂, w, t₃, rfl, hkey, hcolon, hw, hrest⟩ := members?_cases h
      have hfield : t₃ <:+ u := (((hvalue _ _ _ hw).suffix.trans (hskip t₂)).trans
        (suffix_of_skipSpace hcolon)).trans (suffix_of_string? hkey)
      rcases hrest with ⟨u', hnext, h⟩ | ⟨hend, -⟩
      · exact .cons (by decide) ((((hmembers _ _ _ _ h).suffix.trans (hskip u')).trans
          (suffix_of_skipSpace hnext)).trans hfield)
      · exact .cons (by decide) ((suffix_of_skipSpace hend).trans hfield)

/-! ## Layouts -/

/-- Whether a text stands for a value in front of some other text. -/
def Stands (v : Json) (t : Text) : Prop := ∃ fuel rest, value? fuel (t ++ rest) = some (v, rest)

/-- Whether a field is read as this name and value. -/
structure Field.Reads (p : Text × Json) (f : Field) : Prop where
  spaced : f.Spaced
  name : ∀ rest, string? none (f.name ++ '"' :: rest) = some (p.1, rest)
  value : Stands p.2 f.value

/-- Whether an object is read as these names and values. -/
structure Row.Reads (ps : List (Text × Json)) (r : Row) : Prop where
  before : IsGap r.before
  behind : IsGap r.behind
  fields : List.Forall₂ Field.Reads ps r.fields

/-- The text of a value does not begin with a blank. -/
theorem Stands.exists_cons (h : Stands v t) : ∃ c u, t = c :: u ∧ isBlank c = false := by
  obtain ⟨fuel, rest, h⟩ := h
  obtain ⟨c, u, heq, hc⟩ := (yields_of_reading fuel).1 _ _ _ h
  exact ⟨c, u, List.append_cancel_right heq, hc⟩

/-- What stands for a value and begins with a quotation mark is a string. -/
theorem Stands.exists_string {u : Text} (h : Stands v ('"' :: u)) : ∃ w s, u = w ++ ['"'] ∧
    v = .str s ∧ ∀ rest, string? none (w ++ '"' :: rest) = some (s, rest) := by
  obtain ⟨fuel, rest, h⟩ := h
  obtain ⟨fuel, rfl⟩ : ∃ k, fuel = k + 1 := by
    cases fuel with
    | zero => cases h
    | succ k => exact ⟨k, rfl⟩
  rw [List.cons_append, value?] at h
  obtain ⟨⟨s, rest'⟩, hs, h⟩ := Option.bind_eq_some_iff.1 h
  cases h
  obtain ⟨w, hw, hread⟩ := closesAtMark none _ _ _ hs
  refine ⟨w, s, List.append_cancel_right (hw.trans ?_), rfl, hread⟩
  rw [List.append_assoc, List.singleton_append]

theorem exists_of_value? (h : value? fuel t = some (v, rest)) :
    ∃ u, t = u ++ rest ∧ Stands v u := by
  obtain ⟨u, rfl⟩ := ((yields_of_reading fuel).1 _ _ _ h).suffix
  exact ⟨u, rfl, fuel, rest, h⟩

theorem exists_of_skipSpace {c : Char} {u : Text} (h : skipSpace t = c :: u) :
    ∃ gap, IsGap gap ∧ t = gap ++ c :: u := h ▸ exists_gap t

/-- The fields of an object as they were laid out. -/
theorem exists_fields_of_members? {done : List (Text × Json)}
    (h : members? fuel done t = some (v, rest)) : ∃ ps f fs,
      t = f.named ++ (fs.flatMap (',' :: ·.text) ++ '}' :: rest) ∧
        List.Forall₂ Field.Reads ps (f :: fs) ∧
        v = .obj (ps.foldl (fun done p => put p.1 p.2 done) done) := by
  induction fuel generalizing done t with
  | zero => cases h
  | succ fuel ih =>
    obtain ⟨u, key, t₁, t₂, w, t₃, rfl, hkey, hcolon, hw, hrest⟩ := members?_cases h
    obtain ⟨name, rfl, hname⟩ := closesAtMark none u key t₁ hkey
    obtain ⟨gap, hgap, rfl⟩ := exists_of_skipSpace hcolon
    obtain ⟨space, hspace, ht₂⟩ := exists_gap t₂
    obtain ⟨value, hvalue, hstands⟩ := exists_of_value? hw
    have hfield {behind : Text} (hbehind : IsGap behind) :
        Field.Reads (key, w) ⟨[], name, gap, space, value, behind⟩ :=
      ⟨⟨nofun, hgap, hspace, hbehind⟩, hname, hstands⟩
    rcases hrest with ⟨u', hnext, h⟩ | ⟨hend, rfl⟩
    · obtain ⟨behind, hbehind, rfl⟩ := exists_of_skipSpace hnext
      obtain ⟨before, hbefore, hu'⟩ := exists_gap u'
      obtain ⟨ps, f, fs, hfs, hreads, rfl⟩ := ih h
      obtain ⟨p, ps, hf, hps, rfl⟩ := List.forall₂_cons_right_iff.1 hreads
      have hf' : Field.Reads p { f with before } :=
        ⟨⟨hbefore, hf.spaced.gap, hf.spaced.space, hf.spaced.behind⟩, hf.name, hf.value⟩
      refine ⟨(key, w) :: p :: ps, _, { f with before } :: fs, ?_,
        .cons (hfield hbehind) (.cons hf' hps), rfl⟩
      rw [ht₂, hvalue, hu', hfs]
      simp [Field.named, Field.text]
    · obtain ⟨behind, hbehind, rfl⟩ := exists_of_skipSpace hend
      refine ⟨[(key, w)], _, [], ?_, .cons (hfield hbehind) .nil, rfl⟩
      rw [ht₂, hvalue]
      simp [Field.named]

/-- Arrays are read as arrays. -/
theorem exists_arr_of_items? {done : List Json} (h : items? fuel done t = some (v, rest)) :
    ∃ vs, v = .arr vs := by
  induction fuel generalizing done t with
  | zero => cases h
  | succ fuel ih =>
    obtain ⟨w, t', -, ⟨u, -, h⟩ | ⟨-, rfl⟩⟩ := items?_cases h
    · exact ih h
    · exact ⟨_, rfl⟩

/-- An object that is not empty as it was laid out. -/
theorem exists_row_of_value? {fields : List (Text × Json)} (hne : fields ≠ [])
    (h : value? fuel t = some (.obj fields, rest)) : ∃ ps r, t = r.object ++ rest ∧
      r.before = [] ∧ r.behind = [] ∧ Row.Reads ps r ∧ .obj fields = ofFields ps := by
  obtain ⟨fuel, rfl⟩ : ∃ k, fuel = k + 1 := by
    cases fuel with
    | zero => cases h
    | succ k => exact ⟨k, rfl⟩
  rcases value?_cases h with ⟨u, s, -, -, hv⟩ | ⟨u, rfl, ⟨-, hv⟩ | h⟩ | ⟨u, -, ⟨-, hv⟩ | h⟩ | h
  · cases hv
  · cases hv
    exact absurd rfl hne
  · obtain ⟨before, hbefore, hu⟩ := exists_gap u
    obtain ⟨ps, f, fs, hfs, hreads, hv⟩ := exists_fields_of_members? h
    obtain ⟨p, ps, hf, hps, rfl⟩ := List.forall₂_cons_right_iff.1 hreads
    have hf' : Field.Reads p { f with before } :=
      ⟨⟨hbefore, hf.spaced.gap, hf.spaced.space, hf.spaced.behind⟩, hf.name, hf.value⟩
    refine ⟨p :: ps, ⟨[], { f with before } :: fs, []⟩, ?_, rfl, rfl,
      ⟨nofun, nofun, .cons hf' hps⟩, hv⟩
    rw [hu, hfs]
    simp [Row.object, Field.named, Field.text, Text.joinWith_eq, List.flatMap_map]
  · cases hv
  · obtain ⟨vs, hv⟩ := exists_arr_of_items? h
    cases hv
  · exact absurd rfl ((yields_of_atom? h).2.1 fields)

/-- The objects of an array as they were laid out. -/
theorem exists_rows_of_items? {done vs : List Json} (h : items? fuel done t = some (.arr vs, rest))
    (hvs : ∀ v ∈ vs, ∃ fields, fields ≠ [] ∧ v = .obj fields) : ∃ pss r rs,
      t = r.object ++ (r.behind ++ (rs.flatMap (',' :: ·.text) ++ ']' :: rest)) ∧
        List.Forall₂ Row.Reads pss (r :: rs) ∧ vs = done.reverse ++ pss.map ofFields := by
  induction fuel generalizing done t with
  | zero => cases h
  | succ fuel ih =>
    obtain ⟨w, t', hw, hrest⟩ := items?_cases h
    have hrow (hmem : w ∈ vs) : ∃ ps r, t = r.object ++ t' ∧ Row.Reads ps r ∧ w = ofFields ps := by
      obtain ⟨fields, hne, rfl⟩ := hvs w hmem
      obtain ⟨ps, r, ht, -, -, hreads, heq⟩ := exists_row_of_value? hne hw
      exact ⟨ps, r, ht, hreads, heq⟩
    rcases hrest with ⟨u, hnext, h⟩ | ⟨hend, hv⟩
    · obtain ⟨behind, hbehind, rfl⟩ := exists_of_skipSpace hnext
      obtain ⟨before, hbefore, hu⟩ := exists_gap u
      obtain ⟨pss, r', rs, hrs, hreads, rfl⟩ := ih h
      obtain ⟨ps, r, rfl, hr, rfl⟩ := hrow (by simp)
      obtain ⟨ps', pss, hr', hpss, rfl⟩ := List.forall₂_cons_right_iff.1 hreads
      refine ⟨ps :: ps' :: pss, { r with behind }, { r' with before } :: rs, ?_, .cons
        ⟨hr.before, hbehind, hr.fields⟩ (.cons ⟨hbefore, hr'.behind, hr'.fields⟩ hpss), by simp⟩
      rw [hu, hrs]
      simp [Row.object, Row.text]
    · obtain ⟨behind, hbehind, rfl⟩ := exists_of_skipSpace hend
      obtain rfl := Json.arr.inj hv
      obtain ⟨ps, r, rfl, hr, rfl⟩ := hrow (by simp)
      refine ⟨[ps], { r with behind }, [], ?_, .cons ⟨hr.before, hbehind, hr.fields⟩ .nil,
        by simp⟩
      simp [Row.object]

/-- **An array of objects that is read has a layout.** -/
theorem exists_layout_of_read? {vs : List Json} (h : read? t = some (.arr vs)) (hne : vs ≠ [])
    (hvs : ∀ v ∈ vs, ∃ fields, fields ≠ [] ∧ v = .obj fields) : ∃ before rs rest pss,
      t = before ++ (arrayOf rs ++ rest) ∧ List.Forall₂ Row.Reads pss rs ∧
        vs = pss.map ofFields := by
  obtain ⟨before, -, ht⟩ := exists_gap t
  simp only [read?] at h
  split at h
  · next v rest hvalue =>
    split at h
    · obtain rfl := Option.some.inj h
      rcases value?_cases hvalue with ⟨u, s, -, -, hv⟩ | ⟨u, -, ⟨-, hv⟩ | hfields⟩ |
        ⟨u, hopen, ⟨-, hv⟩ | hitems⟩ | hatom
      · cases hv
      · cases hv
      · obtain ⟨_, _, _, _, _, hv⟩ := exists_fields_of_members? hfields
        cases hv
      · cases hv
        exact absurd rfl hne
      · obtain ⟨gap, hgap, hu⟩ := exists_gap u
        obtain ⟨pss, r, rs, hrs, hreads, rfl⟩ := exists_rows_of_items? hitems hvs
        obtain ⟨ps, pss, hr, hpss, rfl⟩ := List.forall₂_cons_right_iff.1 hreads
        refine ⟨before, { r with before := gap } :: rs, rest, ps :: pss, ?_,
          .cons ⟨hgap, hr.behind, hr.fields⟩ hpss, rfl⟩
        rw [ht, hopen, hu, hrs, arrayOf, List.map_cons, Text.joinWith_eq]
        simp [Row.object, Row.text, List.flatMap_map]
      · exact absurd rfl ((yields_of_atom? hatom).2.2 vs)
    · cases h
  · cases h

end ScriptAudit.Json
