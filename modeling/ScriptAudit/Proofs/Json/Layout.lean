import Mathlib.Data.List.Forall2
import ScriptAudit.Proofs.Json.Grammar
import ScriptAudit.Proofs.Json.Strings
import ScriptAudit.Proofs.Text.Lines

/-!
# Arrays of objects as they are laid out

An array of objects can be laid out in many ways: white space, escapes in strings and the order of
the fields are free. `Json.Row` and `Json.Field` keep every piece of the text of an object and of a
field, so that a text is cut into them once and for all. Whatever the layout is, it is read as what
its names and values stand for.

* `Field`, `Row`, `arrayOf` — the pieces of an array of objects, and its text.
* `read?_arrayOf` — what is read from such a text.
* `get?_ofFields` — the fields of what is read.
-/

namespace ScriptAudit.Json

/-! ## Layouts -/

/-- A field as it stands in an object: a name between quotation marks, a colon and a value, with white
space around each of them. -/
structure Field where
  before : Text
  name : Text
  gap : Text
  space : Text
  value : Text
  behind : Text

/-- An object as it stands in an array, with white space around it. -/
structure Row where
  before : Text
  fields : List Field
  behind : Text

namespace Field

/-- The text of a field, from its name on. -/
def named (f : Field) : Text :=
  '"' :: (f.name ++ '"' :: (f.gap ++ ':' :: (f.space ++ (f.value ++ f.behind))))

/-- The text of a field. -/
def text (f : Field) : Text := f.before ++ f.named

/-- Whether there is nothing but white space around the name and the value of a field. -/
structure Spaced (f : Field) : Prop where
  before : IsGap f.before
  gap : IsGap f.gap
  space : IsGap f.space
  behind : IsGap f.behind

end Field

namespace Row

/-- The text of the object itself. -/
def object (r : Row) : Text := '{' :: (Text.joinWith [','] (r.fields.map Field.text) ++ ['}'])

/-- The text of an object in an array. -/
def text (r : Row) : Text := r.before ++ (r.object ++ r.behind)

end Row

/-- The text of an array of objects. -/
def arrayOf (rows : List Row) : Text :=
  '[' :: (Text.joinWith [','] (rows.map Row.text) ++ [']'])

/-! ## Reading a layout -/

theorem skipSpace_append {s t : Text} (hs : IsGap s) (ht : ∀ c ∈ t.head?, isSpace c = false) :
    skipSpace (s ++ t) = t := by
  rw [skipSpace, List.dropWhile_append_of_pos hs]
  cases t with
  | nil => rfl
  | cons c t => exact List.dropWhile_cons_of_neg (by simp [ht c rfl])

/-- Whether a text stands for a value whatever follows. -/
def Delimits (v : Json) (t : Text) : Prop :=
  (∃ c cs, t = c :: cs ∧ isSpace c = false) ∧
    ∀ fuel rest, t.length < fuel → value? fuel (t ++ rest) = some (v, rest)

theorem delimits_string {s t : Text} (h : Spells s t) : Delimits (.str s) ('"' :: (t ++ ['"'])) := by
  refine ⟨⟨_, _, rfl, rfl⟩, fun fuel rest hfuel => ?_⟩
  obtain ⟨fuel, rfl⟩ := Nat.exists_eq_succ_of_ne_zero (Nat.ne_zero_of_lt hfuel)
  simp [value?, string?_append h]

/-- Whether a field is laid out with this name and value. -/
structure Field.Holds (p : Text × Json) (f : Field) : Prop where
  spaced : f.Spaced
  name : Spells p.1 f.name
  value : Delimits p.2 f.value

/-- One field is read, up to the character behind it. -/
theorem members?_named {p : Text × Json} {f : Field} (hf : f.Holds p) {fuel : Nat}
    (hfuel : f.named.length ≤ fuel) (done : List (Text × Json)) {c : Char}
    (hc : isSpace c = false) (rest : Text) :
    members? (fuel + 1) done (f.named ++ c :: rest) =
      match c :: rest with
      | ',' :: t => members? fuel (put p.1 p.2 done) (skipSpace t)
      | '}' :: t => some (.obj (put p.1 p.2 done), t)
      | _ => none := by
  obtain ⟨⟨d, ds, hvalue, hd⟩, hread⟩ := hf.value
  have hlength : f.value.length < fuel := by
    refine Nat.lt_of_lt_of_le ?_ hfuel
    simp only [Field.named, List.length_cons, List.length_append]
    omega
  have hgap (t : Text) : skipSpace (f.gap ++ ':' :: t) = ':' :: t :=
    skipSpace_append hf.spaced.gap fun c hc => by
      obtain rfl : ':' = c := by simpa using hc
      rfl
  have hspace (t : Text) : skipSpace (f.space ++ (f.value ++ t)) = f.value ++ t :=
    skipSpace_append hf.spaced.space fun c hc => by
      obtain rfl : d = c := by simpa [hvalue] using hc
      exact hd
  have hbehind : skipSpace (f.behind ++ c :: rest) = c :: rest :=
    skipSpace_append hf.spaced.behind fun d hd => by
      obtain rfl : c = d := by simpa using hd
      exact hc
  simp only [Field.named, List.cons_append, List.append_assoc]
  rw [members?]
  simp only [string?_append hf.name, hgap, hspace, hread _ _ hlength, hbehind, Option.bind_eq_bind,
    Option.bind_some]
  rfl

/-- The fields of an object are read from the name of the first one on, to the end of the object. -/
theorem members?_append {ps : List (Text × Json)} {fs : List Field} {p : Text × Json} {f : Field}
    (hf : f.Holds p) (hfs : List.Forall₂ Field.Holds ps fs) {fuel : Nat}
    (hfuel : (f.named ++ fs.flatMap (',' :: ·.text)).length ≤ fuel)
    (done : List (Text × Json)) (rest : Text) :
    members? (fuel + 1) done (f.named ++ (fs.flatMap (',' :: ·.text) ++ '}' :: rest)) =
      some (.obj ((p :: ps).foldl (fun done p => put p.1 p.2 done) done), rest) := by
  induction hfs generalizing p f fuel done with
  | nil =>
    rw [List.flatMap_nil, List.append_nil] at hfuel
    exact members?_named hf hfuel done (by decide) rest
  | @cons p' f' ps fs hf' hfs ih =>
    rw [List.flatMap_cons, List.length_append, List.cons_append, List.length_cons, Field.text,
      List.append_assoc, List.length_append] at hfuel
    obtain ⟨fuel, rfl⟩ : ∃ k, fuel = k + 1 := ⟨fuel - 1, by omega⟩
    have hskip (t : Text) : skipSpace (f'.before ++ (f'.named ++ t)) = f'.named ++ t :=
      skipSpace_append hf'.spaced.before (by simp [Field.named, isSpace])
    rw [List.flatMap_cons, List.cons_append, List.cons_append, List.append_assoc, Field.text,
      List.append_assoc]
    refine (members?_named hf (by omega) done (c := ',') (by decide) _).trans ?_
    show members? _ _ (skipSpace (f'.before ++ _)) = _
    rw [hskip]
    exact ih hf' (by omega) (put p.1 p.2 done)

/-- The object with fields that are given in order. -/
def ofFields (ps : List (Text × Json)) : Json := .obj (ps.foldl (fun done p => put p.1 p.2 done) [])

/-- Whether an object is laid out with these names and values. -/
structure Row.Holds (ps : List (Text × Json)) (r : Row) : Prop where
  before : IsGap r.before
  behind : IsGap r.behind
  ne_nil : ps ≠ []
  fields : List.Forall₂ Field.Holds ps r.fields

theorem Row.Holds.delimits {ps : List (Text × Json)} {r : Row} (h : r.Holds ps) :
    Delimits (ofFields ps) r.object := by
  refine ⟨⟨_, _, rfl, by decide⟩, fun fuel rest hfuel => ?_⟩
  obtain ⟨p, ps, rfl⟩ := List.exists_cons_of_ne_nil h.ne_nil
  obtain ⟨f, fs, hf, hfs, hfields⟩ := List.forall₂_cons_left_iff.1 h.fields
  have htext : r.object = '{' :: (f.before ++ (f.named ++ (fs.flatMap (',' :: ·.text) ++ ['}']))) := by
    rw [Row.object, hfields, List.map_cons, Text.joinWith_eq, List.flatMap_map, Field.text]
    simp
  rw [htext] at hfuel ⊢
  simp only [List.length_cons, List.length_append, List.length_nil] at hfuel
  obtain ⟨fuel, rfl⟩ : ∃ k, fuel = k + 1 + 1 := ⟨fuel - 2, by omega⟩
  have hskip : skipSpace (f.before ++ (f.named ++ (fs.flatMap (',' :: ·.text) ++ '}' :: rest))) =
      f.named ++ (fs.flatMap (',' :: ·.text) ++ '}' :: rest) :=
    skipSpace_append hf.spaced.before (by simp [Field.named, isSpace])
  have hlength : (f.named ++ fs.flatMap (',' :: ·.text)).length ≤ fuel := by
    rw [List.length_append]
    omega
  have hmembers := members?_append hf hfs hlength [] rest
  simp only [List.cons_append, List.append_assoc, List.nil_append]
  rw [value?, hskip]
  exact hmembers

/-- One object is read, up to the character behind it. -/
theorem items?_object {ps : List (Text × Json)} {r : Row} (hr : r.Holds ps) {fuel : Nat}
    (hfuel : r.object.length < fuel) (done : List Json) {c : Char} (hc : isSpace c = false)
    (rest : Text) :
    items? (fuel + 1) done (r.object ++ (r.behind ++ c :: rest)) =
      match c :: rest with
      | ',' :: t => items? fuel (ofFields ps :: done) (skipSpace t)
      | ']' :: t => some (.arr (ofFields ps :: done).reverse, t)
      | _ => none := by
  have hbehind : skipSpace (r.behind ++ c :: rest) = c :: rest :=
    skipSpace_append hr.behind fun d hd => by
      obtain rfl : c = d := by simpa using hd
      exact hc
  rw [items?]
  simp only [hr.delimits.2 _ _ hfuel, hbehind, Option.bind_eq_bind, Option.bind_some]
  rfl

/-- The objects of an array are read from the first one on, up to the end of the array. -/
theorem items?_append {pss : List (List (Text × Json))} {rs : List Row} {ps : List (Text × Json)}
    {r : Row} (hr : r.Holds ps) (hrs : List.Forall₂ (fun ps r => Row.Holds ps r) pss rs) {fuel : Nat}
    (hfuel : (r.object ++ (r.behind ++ rs.flatMap (',' :: ·.text))).length < fuel)
    (done : List Json) (rest : Text) :
    items? (fuel + 1) done (r.object ++ (r.behind ++ (rs.flatMap (',' :: ·.text) ++ ']' :: rest))) =
      some (.arr (done.reverse ++ (ps :: pss).map ofFields), rest) := by
  induction hrs generalizing ps r fuel done with
  | nil =>
    rw [List.length_append] at hfuel
    refine (items?_object hr (by omega) done (c := ']') (by decide) rest).trans ?_
    simp
  | @cons ps' r' pss rs hr' hrs ih =>
    have htext : r'.text.length = r'.before.length + (r'.object.length + r'.behind.length) := by
      rw [Row.text, List.length_append, List.length_append]
    simp only [List.flatMap_cons, List.length_append, List.length_cons, htext] at hfuel
    obtain ⟨fuel, rfl⟩ : ∃ k, fuel = k + 1 := ⟨fuel - 1, by omega⟩
    have hskip (t : Text) : skipSpace (r'.before ++ (r'.object ++ t)) = r'.object ++ t :=
      skipSpace_append hr'.before (by simp [Row.object, isSpace])
    rw [List.flatMap_cons, List.cons_append, List.cons_append, List.append_assoc, Row.text,
      List.append_assoc, List.append_assoc]
    refine (items?_object hr (by omega) done (c := ',') (by decide) _).trans ?_
    show items? _ _ (skipSpace (r'.before ++ _)) = _
    rw [hskip, ih hr' (by simp only [List.length_append]; omega)]
    simp

/-- **An array of objects is read as it is laid out**, with white space behind it only. -/
theorem read?_arrayOf {pss : List (List (Text × Json))} {rs : List Row}
    (h : List.Forall₂ (fun ps r => Row.Holds ps r) pss rs) (hne : pss ≠ []) (trailing : Text) :
    read? (arrayOf rs ++ trailing) =
      if (skipSpace trailing).isEmpty then some (.arr (pss.map ofFields)) else none := by
  obtain ⟨ps, pss, rfl⟩ := List.exists_cons_of_ne_nil hne
  obtain ⟨r, rs, hr, hrs, rfl⟩ := List.forall₂_cons_left_iff.1 h
  have htext : arrayOf (r :: rs) ++ trailing = '[' :: (r.before ++ (r.object ++ (r.behind ++
      (rs.flatMap (',' :: ·.text) ++ ']' :: trailing)))) := by
    rw [arrayOf, List.map_cons, Text.joinWith_eq, List.flatMap_map, Row.text]
    simp
  have hskip (t : Text) : skipSpace (r.before ++ (r.object ++ t)) = r.object ++ t :=
    skipSpace_append hr.before (by simp [Row.object, isSpace])
  have hvalue {fuel : Nat} (hfuel : (arrayOf (r :: rs) ++ trailing).length ≤ fuel) :
      value? (fuel + 1) (arrayOf (r :: rs) ++ trailing) =
        some (.arr ((ps :: pss).map ofFields), trailing) := by
    rw [htext] at hfuel ⊢
    simp only [List.length_append, List.length_cons] at hfuel
    obtain ⟨fuel, rfl⟩ : ∃ k, fuel = k + 1 := ⟨fuel - 1, by omega⟩
    rw [value?, hskip]
    exact items?_append hr hrs (by simp only [List.length_append]; omega) [] trailing
  have hskip : skipSpace (arrayOf (r :: rs) ++ trailing) = arrayOf (r :: rs) ++ trailing := rfl
  rw [read?, hskip]
  simp only [hvalue le_rfl]

/-! ## The fields of an object -/

theorem get?_cons (k key : Text) (v : Json) (fields : List (Text × Json)) :
    get? k ((key, v) :: fields) = if k = key then some v else get? k fields := by
  rw [get?, List.lookup_cons, beq_eq_decide]
  split <;> simp_all [get?]

theorem get?_put (k key : Text) (v : Json) (fields : List (Text × Json)) :
    get? k (put key v fields) = if k = key then some v else get? k fields := by
  induction fields with
  | nil => exact get?_cons k key v []
  | cons f fields ih =>
    rw [put]
    split
    · next hname =>
      obtain rfl : f.1 = key := eq_of_beq hname
      rw [get?_cons, get?_cons]
      split <;> rfl
    · next hname =>
      rw [get?_cons, get?_cons, ih]
      by_cases hk : k = key
      · subst hk
        rw [if_pos rfl, if_pos rfl, if_neg fun heq => hname (beq_iff_eq.2 heq.symm)]
      · rw [if_neg hk, if_neg hk]

/-- A name that is given one value only has this value. -/
theorem get?_ofFields {k : Text} {v : Json} {ps : List (Text × Json)} (hmem : (k, v) ∈ ps)
    (honly : ∀ p ∈ ps, p.1 = k → p.2 = v) :
    get? k (ps.foldl (fun done p => put p.1 p.2 done) []) = some v := by
  suffices h : ∀ done, (k, v) ∈ ps ∨ get? k done = some v →
      get? k (ps.foldl (fun done p => put p.1 p.2 done) done) = some v from h [] (Or.inl hmem)
  clear hmem
  induction ps with
  | nil => exact fun done h => h.resolve_left List.not_mem_nil
  | cons p ps ih =>
    obtain ⟨hp, hps⟩ := List.forall_mem_cons.1 honly
    intro done h
    refine ih hps (put p.1 p.2 done) ?_
    rw [get?_put]
    rcases h with h | h
    · rcases List.mem_cons.1 h with rfl | h
      · exact Or.inr (if_pos rfl)
      · exact Or.inl h
    · refine Or.inr ?_
      split
      · next hk => rw [hp hk.symm]
      · exact h

end ScriptAudit.Json
