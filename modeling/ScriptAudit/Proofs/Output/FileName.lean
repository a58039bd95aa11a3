import Mathlib.Data.List.DropRight
import ScriptAudit.Proofs.Output.Label
import ScriptAudit.Proofs.Output.Reading

/-!
# The name of a test from the path of its file

A report without a heading takes the name of the test from the line of its file. That should be the
last part of the path without its extension (`baseName`). But the name is not looked for in the path
that is found: it must stand behind a separator, and it may go on below the line, up to the next
separator.

* `baseName`, `exists_eq_append_baseName` — a path is its directory and its last part.
* `overreaches` — a label whose name ends below its line.
* `exists_path_of_fileName` — any other label with a name has a path.
* `testName_eq_baseName_iff` — when the name of the test is that of its file.
-/

namespace ScriptAudit.Report

variable {t gap line back tail : Text}

/-! ## Paths -/

/-- Whether a character separates the parts of a path. -/
def isSeparator (c : Char) : Bool := c = '/' || c = '\\'

/-- The last part of a path without its extension. -/
def baseName (path : Text) : Text :=
  let part := path.rtakeWhile fun c => !isSeparator c
  part.take (part.length - ".mkd".toList.length)

theorem isSeparator_extension : ∀ c ∈ ".mkd".toList, isSeparator c = false :=
  Text.forall_mem_of_all (by decide)

theorem baseName_append (stem : Text) :
    baseName (stem ++ ".mkd".toList) = stem.rtakeWhile fun c => !isSeparator c := by
  have hpart : (stem ++ ".mkd".toList).rtakeWhile (fun c => !isSeparator c) =
      stem.rtakeWhile (fun c => !isSeparator c) ++ ".mkd".toList := by
    simp [List.rtakeWhile, isSeparator]
  rw [baseName, hpart, List.length_append, Nat.add_sub_cancel_right, List.take_left]

/-- A path is its directory and its last part. -/
theorem exists_eq_append_baseName (stem : Text) :
    ∃ dir, stem = dir ++ baseName (stem ++ ".mkd".toList) ∧
      (∀ c ∈ baseName (stem ++ ".mkd".toList), isSeparator c = false) ∧
      ∀ c ∈ dir.getLast?, isSeparator c = true := by
  rw [baseName_append]
  refine ⟨stem.rdropWhile fun c => !isSeparator c, List.rdropWhile_append_rtakeWhile.symm,
    fun c hc => ?_, fun c hc => ?_⟩
  · simpa using List.mem_rtakeWhile_imp hc
  · obtain ⟨hne, rfl⟩ := List.mem_getLast?_eq_getLast hc
    simpa using List.rdropWhile_last_not _ _ hne

/-! ## The name behind a separator -/

/-- The extension that is found does not stand in front of a character behind which there is one. -/
theorem exists_beforeExtension?_of_infix {a : Char} (ha : a ∉ ".mkd".toList) (u : Text) {v : Text}
    (h : ".mkd".toList <:+: v) : ∃ stem, beforeExtension? (u ++ a :: v) = some stem ∧ a ∈ stem := by
  cases hstem : beforeExtension? (u ++ a :: v) with
  | none =>
    exfalso
    cases u with
    | nil => exact beforeExtension?_eq_none_iff.1 hstem h
    | cons c u =>
      exact beforeExtension?_eq_none_iff.1 hstem (Text.infix_append_cons h u a)
  | some stem =>
    refine ⟨stem, rfl, ?_⟩
    obtain ⟨-, rest, heq, hrest⟩ := beforeExtension?_eq_some_iff.1 hstem
    rcases Text.append_eq_append_cons heq.symm with ⟨right, rfl, -⟩ | ⟨left, -, hleft⟩
    · simp
    · rcases Text.append_eq_append_cons hleft with ⟨right, hmkd, -⟩ | ⟨left', -, rfl⟩
      · exact absurd (hmkd ▸ List.mem_append_right left List.mem_cons_self) ha
      · exact absurd (Text.infix_append_cons h left' a) hrest

theorem lastName?_cons (c : Char) (cs rest : Text) : lastName? (c :: cs) rest =
    (lastName? cs rest).or (if isSeparator c = true then
      beforeExtension? ((cs ++ rest).takeWhile fun x => !isSeparator x) else none) := by
  have hclass : (fun x : Char => !isSeparator x) = fun x => x ≠ '/' && x ≠ '\\' := by
    funext x
    simp [isSeparator]
  rw [lastName?, hclass]
  cases lastName? cs rest <;> rfl

theorem lastName?_eq_none (h : ∀ c ∈ line, isSeparator c = false) (rest : Text) :
    lastName? line rest = none := by
  induction line with
  | nil => rfl
  | cons c cs ih =>
    rw [lastName?_cons, ih fun d hd => h d (List.mem_cons_of_mem c hd), h c List.mem_cons_self]
    rfl

theorem lastName?_append {rest name : Text} (h : lastName? line rest = some name) (front : Text) :
    lastName? (front ++ line) rest = some name := by
  induction front with
  | nil => exact h
  | cons c front ih => rw [List.cons_append, lastName?_cons, ih, Option.some_or]

theorem ne_nil_of_lastName? {rest name : Text} (h : lastName? line rest = some name) :
    name ≠ [] := by
  induction line with
  | nil => cases h
  | cons c cs ih =>
    rw [lastName?_cons, Option.or_eq_some_iff] at h
    rcases h with h | ⟨-, h⟩
    · exact ih h
    · split at h
      · exact (beforeExtension?_eq_some_iff.1 h).1
      · cases h

section

variable (hback : ∀ c ∈ back.head?, c = '\n')
include hback

/-- An extension does not go on from one line to the next. -/
theorem infix_or_of_infix_takeWhile
    (h : ".mkd".toList <:+: (t ++ back).takeWhile fun c => !isSeparator c) :
    ".mkd".toList <:+: t ∨ ".mkd".toList <:+: back.takeWhile fun c => !isSeparator c := by
  by_cases hall : ∀ c ∈ t, (!isSeparator c) = true
  · rw [List.takeWhile_append_of_pos hall] at h
    cases back with
    | nil => exact Or.inl (by simpa using h)
    | cons c back =>
      obtain rfl : c = '\n' := hback c rfl
      rw [List.takeWhile_cons_of_pos (by decide)] at h ⊢
      rcases (Text.infix_append_cons_iff (by decide)).1 h with h | h
      · exact Or.inl h
      · exact Or.inr (List.infix_cons h)
  · push Not at hall
    obtain ⟨c, hc, hsep⟩ := hall
    obtain ⟨u, v, rfl⟩ := List.append_of_mem hc
    rw [List.append_assoc, List.cons_append,
      Text.takeWhile_append_cons (by simpa using hsep)] at h
    exact Or.inl ((h.trans (List.takeWhile_prefix _).isInfix).trans
      (List.prefix_append u (c :: v)).isInfix)

/-- A name that is found stands behind a separator on the line, and so does its extension, unless
the extension stands below the line. -/
theorem exists_of_lastName? {name : Text}
    (hbelow : ¬ ".mkd".toList <:+: back.takeWhile fun c => !isSeparator c)
    (h : lastName? line back = some name) :
    ∃ u s w, line = u ++ s :: w ∧ isSeparator s = true ∧ ".mkd".toList <:+: w := by
  induction line with
  | nil => cases h
  | cons c cs ih =>
    rw [lastName?_cons, Option.or_eq_some_iff] at h
    rcases h with h | ⟨-, h⟩
    · obtain ⟨u, s, w, rfl, hs, hw⟩ := ih h
      exact ⟨c :: u, s, w, rfl, hs, hw⟩
    · split at h
      · next hsep =>
        obtain ⟨-, rest, heq, -⟩ := beforeExtension?_eq_some_iff.1 h
        have hinfix : ".mkd".toList <:+: (cs ++ back).takeWhile fun x => !isSeparator x :=
          ⟨name, rest, by rw [heq, List.append_assoc]⟩
        exact ⟨[], c, cs, rfl, hsep,
          (infix_or_of_infix_takeWhile hback hinfix).resolve_right hbelow⟩
      · cases h

/-- An extension below the line is found instead of one on the line. -/
theorem exists_lastName?_of_below (hline : ∃ c ∈ line, isSeparator c = true)
    (hbelow : ".mkd".toList <:+: back.takeWhile fun c => !isSeparator c) :
    ∃ name, lastName? line back = some name ∧ '\n' ∈ name := by
  induction line with
  | nil =>
    obtain ⟨c, hc, -⟩ := hline
    cases hc
  | cons c cs ih =>
    rw [lastName?_cons]
    by_cases hmore : ∃ d ∈ cs, isSeparator d = true
    · obtain ⟨name, hname, hbreak⟩ := ih hmore
      exact ⟨name, by rw [hname, Option.some_or], hbreak⟩
    · have hnone : ∀ d ∈ cs, isSeparator d = false := fun d hd =>
        Bool.eq_false_iff.2 fun hsep => hmore ⟨d, hd, hsep⟩
      have hc : isSeparator c = true := by
        obtain ⟨d, hd, hsep⟩ := hline
        rcases List.mem_cons.1 hd with rfl | hd
        · exact hsep
        · exact absurd ⟨d, hd, hsep⟩ hmore
      rw [lastName?_eq_none hnone, Option.none_or, if_pos hc,
        List.takeWhile_append_of_pos fun d hd => by rw [hnone d hd]; rfl]
      cases back with
      | nil => exact absurd hbelow (by decide)
      | cons b below =>
        obtain rfl : b = '\n' := hback b rfl
        rw [List.takeWhile_cons_of_pos (by decide)] at hbelow ⊢
        have hfirst := (Text.infix_append_cons_iff (u := []) (by decide)).1 hbelow
        exact exists_beforeExtension?_of_infix (by decide) cs (hfirst.resolve_left (by decide))

/-- No name is found behind a separator that has no extension behind it. -/
theorem lastName?_append_eq_none {part : Text} (hpart : ∀ c ∈ part, isSeparator c = false)
    (htail : ¬ ".mkd".toList <:+: tail)
    (hbelow : ¬ ".mkd".toList <:+: back.takeWhile fun c => !isSeparator c) :
    lastName? (part ++ tail) back = none := by
  refine Option.eq_none_iff_forall_ne_some.2 fun name hname => ?_
  obtain ⟨u, s, w, heq, hs, hw⟩ := exists_of_lastName? hback hbelow hname
  rcases Text.append_eq_append_cons heq with ⟨right, rfl, -⟩ | ⟨left, -, rfl⟩
  · have := hpart s (by simp)
    rw [hs] at this
    cases this
  · exact htail (Text.infix_append_cons hw left s)

/-- The name that is found is the last part of a path, unless an extension stands below the line. -/
theorem lastName?_eq_baseName {stem : Text} (hsep : ∃ c ∈ stem, isSeparator c = true)
    (hname : baseName (stem ++ ".mkd".toList) ≠ []) (htail : ¬ ".mkd".toList <:+: tail)
    (hbelow : ¬ ".mkd".toList <:+: back.takeWhile fun c => !isSeparator c) :
    lastName? (stem ++ (".mkd".toList ++ tail)) back = some (baseName (stem ++ ".mkd".toList)) := by
  obtain ⟨dir, hstem, hnot, hlast⟩ := exists_eq_append_baseName stem
  generalize baseName (stem ++ ".mkd".toList) = name at *
  obtain ⟨dir, s, rfl⟩ : ∃ d s, dir = d ++ [s] := by
    rcases List.eq_nil_or_concat dir with rfl | ⟨d, s, hd⟩
    · obtain ⟨c, hc, hsep⟩ := hsep
      rw [hnot c (by rwa [hstem] at hc)] at hsep
      cases hsep
    · exact ⟨d, s, by rw [hd, List.concat_eq_append]⟩
  have hs : isSeparator s = true := hlast s (by simp)
  have hpart : ∀ c ∈ name ++ ".mkd".toList, isSeparator c = false := fun c hc =>
    (List.mem_append.1 hc).elim (hnot c) (isSeparator_extension c)
  have hrun : ∀ c ∈ name ++ ".mkd".toList, (!isSeparator c) = true := fun c hc => by
    rw [hpart c hc]
    rfl
  have hend : ¬ ".mkd".toList <:+: (tail ++ back).takeWhile fun c => !isSeparator c := fun h =>
    (infix_or_of_infix_takeWhile hback h).elim htail hbelow
  have hfound : lastName? (s :: (name ++ ".mkd".toList ++ tail)) back = some name := by
    rw [lastName?_cons, lastName?_append_eq_none hback hpart htail hbelow, Option.none_or, if_pos hs,
      List.append_assoc, List.takeWhile_append_of_pos hrun, List.append_assoc]
    exact beforeExtension?_eq_some_iff.2 ⟨hname, _, rfl, hend⟩
  rw [hstem, List.append_assoc, List.append_assoc, List.singleton_append, ← List.append_assoc name]
  exact lastName?_append hfound dir

end

/-! ## Lines of files -/

/-- A text that begins with the label of a file, with its gap and its line. -/
structure FileLine (t gap line back : Text) : Prop where
  eq : t = "file:".toList ++ (gap ++ (line ++ back))
  gap_ne_nil : gap ≠ []
  blank_gap : ∀ c ∈ gap, isBlank c = true
  head : ∀ c ∈ (line ++ back).head?, isBlank c = false
  newline_notMem : '\n' ∉ line
  back : ∀ c ∈ back.head?, c = '\n'

theorem fileLine_or_none (t : Text) : (∃ gap line back, FileLine t gap line back) ∨
    (Text.after? "file:" t).bind Trace.gap? = none := by
  cases hafter : Text.after? "file:" t with
  | none => exact Or.inr rfl
  | some rest =>
    rw [Option.bind_some, Trace.gap?]
    by_cases hgap : rest.takeWhile isBlank = []
    · exact Or.inr (by rw [hgap]; rfl)
    refine Or.inl ⟨rest.takeWhile isBlank, (rest.dropWhile isBlank).takeWhile (· ≠ '\n'),
      (rest.dropWhile isBlank).dropWhile (· ≠ '\n'), ?_, hgap, fun c hc =>
      List.mem_takeWhile_imp hc, fun c hc => ?_, fun hmem => ?_, fun c hc => ?_⟩
    · rw [List.takeWhile_append_dropWhile, List.takeWhile_append_dropWhile]
      exact Text.eq_append_of_after? hafter
    · rw [List.takeWhile_append_dropWhile] at hc
      exact Text.eq_false_of_mem_head?_dropWhile hc
    · exact absurd (List.mem_takeWhile_imp hmem) (by decide)
    · simpa using Text.eq_false_of_mem_head?_dropWhile hc

/-- Reads a name. -/
def readName (g : Text × Text) : Option (Text × Nat) :=
  (lastName? (g.2.takeWhile (· ≠ '\n')) (g.2.drop (g.2.takeWhile (· ≠ '\n')).length)).bind
    fun name => some (name, 1)

theorem fileName_eq : fileName = gapped "file:" readName := rfl

theorem gapped_eq {α : Type} (label : Text) (next : Text × Text → Option (α × Nat))
    (before : Option Char) (t : Text) :
    gapped label next before t = ((Text.after? label t).bind Trace.gap?).bind next := by
  rw [gapped, Option.bind_assoc]

theorem exists_fileLine {α : Type} (next : Text × Text → Option (α × Nat)) {find : α × Nat}
    (h : gapped "file:" next none t = some find) : ∃ gap line back, FileLine t gap line back := by
  refine (fileLine_or_none t).resolve_right fun hnone => ?_
  rw [gapped_eq, hnone] at h
  cases h

/-- Whether a text begins with the label of a file whose line has a separator, and an extension
stands below the line in front of the next separator. -/
def overreaches (t : Text) : Bool :=
  match (Text.after? "file:" t).bind Trace.gap? with
  | none => false
  | some (_, rest) =>
    (rest.takeWhile (· ≠ '\n')).any isSeparator &&
      Text.contains ".mkd" ((rest.dropWhile (· ≠ '\n')).takeWhile fun c => !isSeparator c)

namespace FileLine

variable (h : FileLine t gap line back)
include h

theorem bind_gap? : (Text.after? "file:" t).bind Trace.gap? = some (gap, line ++ back) := by
  rw [h.eq, Text.after?_append, Option.bind_some]
  exact Trace.gap?_append gap h.gap_ne_nil h.blank_gap h.head

theorem takeWhile_line : (line ++ back).takeWhile (· ≠ '\n') = line :=
  Text.takeWhile_ne_append h.newline_notMem h.back

theorem dropWhile_line : (line ++ back).dropWhile (· ≠ '\n') = back := by
  rw [← Text.drop_length_takeWhile, h.takeWhile_line, List.drop_left]

theorem fileName_eq (before : Option Char) :
    fileName before t = (lastName? line back).bind fun name => some (name, 1) := by
  rw [Report.fileName_eq, gapped_eq, h.bind_gap?, Option.bind_some, readName, h.takeWhile_line,
    List.drop_left]

theorem lastName?_of_fileName {before : Option Char} {name : Text} {n : Nat}
    (hname : fileName before t = some (name, n)) : lastName? line back = some name := by
  rw [h.fileName_eq] at hname
  obtain ⟨name', hfound, hpair⟩ := Option.bind_eq_some_iff.1 hname
  obtain ⟨rfl, -⟩ := Prod.mk.inj (Option.some.inj hpair)
  exact hfound

theorem path_eq (before : Option Char) :
    Report.path before t = (pathAfter? gap (line ++ back)).bind fun p => some (p, 1) := by
  rw [Report.path_eq, gapped_eq, h.bind_gap?, Option.bind_some]
  rfl

theorem overreaches_iff : overreaches t = true ↔ (∃ c ∈ line, isSeparator c = true) ∧
    ".mkd".toList <:+: back.takeWhile fun c => !isSeparator c := by
  rw [overreaches, h.bind_gap?]
  simp only [h.takeWhile_line, h.dropWhile_line, Bool.and_eq_true, List.any_eq_true,
    Text.contains_iff_infix]

end FileLine

/-! ## The path on a line -/

theorem isSome_pathAfter? {rest : Text} (hgap : gap ≠ [])
    (h : (beforeExtension? (rest.takeWhile (· ≠ '\n'))).isSome = true) :
    (pathAfter? gap rest).isSome = true := by
  induction gap with
  | nil => exact absurd rfl hgap
  | cons b bs ih =>
    rw [pathAfter?]
    by_cases hnil : bs = []
    · obtain ⟨stem, hstem⟩ := Option.isSome_iff_exists.1 h
      rw [hnil, pathAfter?, List.nil_append, hstem]
      rfl
    · obtain ⟨p, hp⟩ := Option.isSome_iff_exists.1 (ih hnil)
      rw [hp]
      rfl

theorem exists_of_pathAfter? {rest p : Text} (h : pathAfter? gap rest = some p) :
    ∃ g u stem, gap = g ++ u ∧ beforeExtension? ((u ++ rest).takeWhile (· ≠ '\n')) = some stem ∧
      p = stem ++ ".mkd".toList := by
  induction gap with
  | nil => cases h
  | cons b bs ih =>
    rw [pathAfter?] at h
    cases hdeeper : pathAfter? bs rest with
    | some q =>
      rw [hdeeper] at h
      obtain rfl : q = p := Option.some.inj h
      obtain ⟨g, u, stem, rfl, hstem, hq⟩ := ih hdeeper
      exact ⟨b :: g, u, stem, rfl, hstem, hq⟩
    | none =>
      rw [hdeeper] at h
      obtain ⟨stem, hstem, hp⟩ := Option.map_eq_some_iff.1 h
      exact ⟨[b], bs, stem, rfl, hstem, hp.symm⟩

/-- A name is found together with a path, unless the name stands below the line. -/
theorem exists_path_of_fileName {before : Option Char} {name : Text} {n : Nat}
    (hname : fileName before t = some (name, n)) (hover : ¬ overreaches t = true) :
    ∃ p, path before t = some (p, 1) := by
  obtain ⟨gap, line, back, h⟩ := exists_fileLine readName hname
  have hfound := h.lastName?_of_fileName hname
  have hsep : ∃ c ∈ line, isSeparator c = true := by
    by_contra hnot
    push Not at hnot
    rw [lastName?_eq_none fun c hc => Bool.eq_false_iff.2 (hnot c hc)] at hfound
    cases hfound
  rw [h.overreaches_iff, not_and] at hover
  obtain ⟨u, s, w, hline, hs, hw⟩ := exists_of_lastName? h.back (hover hsep) hfound
  have hmkd : s ∉ ".mkd".toList := by
    intro hmem
    rw [isSeparator_extension s hmem] at hs
    cases hs
  obtain ⟨stem, hstem, -⟩ := exists_beforeExtension?_of_infix hmkd u hw
  have hsome : (beforeExtension? ((line ++ back).takeWhile (· ≠ '\n'))).isSome = true := by
    rw [h.takeWhile_line, hline, hstem]
    rfl
  obtain ⟨p, hp⟩ := Option.isSome_iff_exists.1 (isSome_pathAfter? h.gap_ne_nil hsome)
  exact ⟨p, by rw [h.path_eq, hp]; rfl⟩

/-- The path that is found is the line up to its last extension. -/
theorem FileLine.exists_of_path (h : FileLine t gap line back) {before : Option Char} {p : Text}
    {n : Nat} (hpath : path before t = some (p, n)) :
    ∃ stem tail, Text.trim p = stem ++ ".mkd".toList ∧ line = stem ++ (".mkd".toList ++ tail) ∧
      ¬ ".mkd".toList <:+: tail := by
  rw [h.path_eq] at hpath
  obtain ⟨p', hp, hpair⟩ := Option.bind_eq_some_iff.1 hpath
  obtain ⟨rfl, -⟩ := Prod.mk.inj (Option.some.inj hpair)
  obtain ⟨g, u, stem, rfl, hstem, rfl⟩ := exists_of_pathAfter? hp
  obtain ⟨-, tail, heq, htail⟩ := beforeExtension?_eq_some_iff.1 hstem
  have hu : ∀ c ∈ u, isBlank c = true := fun c hc => h.blank_gap c (List.mem_append_right g hc)
  have hnot (c : Char) (hc : c ∈ u) : c ≠ '.' := by
    rintro rfl
    exact absurd (hu '.' hc) (by decide)
  have hbreak : '\n' ∉ u := by
    intro hmem
    have hdot : '.' ∈ (u ++ (line ++ back)).takeWhile (· ≠ '\n') := by
      rw [heq]
      simp
    rw [Text.takeWhile_ne_append_of_mem hmem] at hdot
    exact hnot '.' ((List.takeWhile_prefix _).subset hdot) rfl
  have hnotMem : '\n' ∉ u ++ line := fun hmem =>
    (List.mem_append.1 hmem).elim hbreak h.newline_notMem
  rw [← List.append_assoc, Text.takeWhile_ne_append hnotMem h.back] at heq
  -- the blanks that are left to the path do not go on into its extension
  obtain ⟨stem, rfl, hline⟩ : ∃ stem', stem = u ++ stem' ∧ line = stem' ++ (".mkd".toList ++ tail) := by
    rcases List.append_eq_append_iff.1 heq with ⟨stem', hstem', hline⟩ | ⟨more, rfl, hmore⟩
    · exact ⟨stem', hstem', hline⟩
    · cases more with
      | nil => exact ⟨[], by simp, hmore.symm⟩
      | cons c more => exact absurd (List.cons.inj hmore).1.symm (hnot c (by simp))
  refine ⟨stem, tail, ?_, hline, htail⟩
  have hhead : ∀ c ∈ (stem ++ ".mkd".toList).head?, isBlank c = false := fun c hc => by
    refine h.head c ?_
    rw [hline, ← List.append_assoc, List.append_assoc, List.head?_append_of_ne_nil _ (by simp)]
    exact hc
  have hlast : ∀ c ∈ (stem ++ ".mkd".toList).getLast?, isBlank c = false := fun c hc => by
    rw [List.getLast?_append_of_ne_nil _ (by decide)] at hc
    obtain rfl : 'd' = c := Option.some.inj hc
    decide
  rw [List.append_assoc, Text.trim, Text.trimLeft, Text.dropWhile_append_of_head? hu hhead,
    Text.trimRight_eq_self hlast]

/-! ## The name of the test -/

/-- Whether the label of a file reads on below its line, and no label ahead of it gives a path. -/
def Overreached (raw : Text) : Prop :=
  ∃ x y, raw = x ++ y ∧ overreaches y = true ∧ path.Passes x y

/-- Whether a path has several parts. -/
def HasSeparator (path : Text) : Prop := ∃ c ∈ path, isSeparator c = true

theorem exists_fileName_of_overreaches (h : overreaches t = true) (before : Option Char) :
    ∃ name, fileName before t = some (name, 1) ∧ '\n' ∈ name := by
  rcases fileLine_or_none t with ⟨gap, line, back, hline⟩ | hnone
  · obtain ⟨hsep, hbelow⟩ := hline.overreaches_iff.1 h
    obtain ⟨name, hname, hbreak⟩ := exists_lastName?_of_below hline.back hsep hbelow
    exact ⟨name, by rw [hline.fileName_eq, hname]; rfl, hbreak⟩
  · rw [overreaches, hnone] at h
    cases h

theorem ne_nil_of_fileName {before : Option Char} {name : Text} {n : Nat}
    (h : fileName before t = some (name, n)) : name ≠ [] := by
  obtain ⟨gap, line, back, hline⟩ := exists_fileLine readName h
  exact ne_nil_of_lastName? (hline.lastName?_of_fileName h)

variable {raw front s : Text}

/-- Where a label reads on below its line, the name has a line break. -/
theorem Overreached.exists_name (h : Overreached raw) :
    ∃ name, fileName.first? raw = some name ∧ '\n' ∈ name := by
  obtain ⟨x, y, rfl, hover, hpass⟩ := h
  have hne : y ≠ [] := by
    rintro rfl
    cases hover
  have hy (before : Option Char) : (fileName before y).isSome = true := by
    obtain ⟨name, hname, -⟩ := exists_fileName_of_overreaches hover before
    rw [hname]
    rfl
  obtain ⟨u, w, name, n, rfl, hname, hfirst⟩ := Recogniser.exists_search_append hne hy none x
  refine ⟨name, hfirst, ?_⟩
  have hover' : overreaches (w ++ y) = true := by
    by_cases hw : w = []
    · rw [hw]
      exact hover
    · by_contra hnot
      obtain ⟨p, hp⟩ := exists_path_of_fileName hname hnot
      rw [hpass _ w (List.suffix_append u w) hw] at hp
      cases hp
  obtain ⟨name', hname', hbreak⟩ := exists_fileName_of_overreaches hover' (u.getLast?.or none)
  rw [hname'] at hname
  obtain ⟨rfl, -⟩ := Prod.mk.inj (Option.some.inj hname)
  exact hbreak

/-- Otherwise no name is found ahead of the path. -/
theorem passes_of_not_overreached (h : ¬ Overreached (front ++ s)) (hpass : path.Passes front s) :
    fileName.Passes front s ∧ ¬ overreaches s = true := by
  refine ⟨?_, fun hover => h ⟨front, s, rfl, hover, hpass⟩⟩
  rintro before w ⟨x, rfl⟩ hne
  refine Option.eq_none_iff_forall_ne_some.2 fun find hfind => ?_
  have hnot : ¬ overreaches (w ++ s) = true := by
    refine fun hover => h ⟨x, w ++ s, List.append_assoc x w s, hover, ?_⟩
    rintro before w' ⟨x', rfl⟩ hne'
    rw [← List.append_assoc]
    exact hpass before (w' ++ w) ⟨x', by simp⟩ (by simp [hne'])
  obtain ⟨p, hp⟩ := exists_path_of_fileName hfind hnot
  rw [hpass before w (List.suffix_append x w) hne] at hp
  cases hp

/-- A line without a name is passed over up to what stands behind the gap. -/
theorem FileLine.search_fileName (h : FileLine t gap line back) (hnone : lastName? line back = none)
    (before : Option Char) : fileName.search before t = fileName.first? (line ++ back) := by
  have hgap : 'f' ∉ "ile:".toList ++ gap := by
    intro hmem
    rcases List.mem_append.1 hmem with hmem | hmem
    · exact absurd hmem (by decide)
    · exact absurd (h.blank_gap _ hmem) (by decide)
  have hrest : fileName.Passes ("ile:".toList ++ gap) (line ++ back) := by
    rw [Report.fileName_eq]
    exact passes_of_notMem rfl hgap
  have hparts : t = 'f' :: (("ile:".toList ++ gap) ++ (line ++ back)) := by
    rw [h.eq, List.append_assoc]
    rfl
  have hhere := h.fileName_eq before
  rw [hnone, Option.bind_none, hparts] at hhere
  rw [hparts, Recogniser.search, hhere]
  show fileName.search (some 'f') _ = _
  rw [hrest.search_append]
  cases line ++ back <;> rfl

theorem hasSeparator_append_extension {stem : Text} :
    HasSeparator (stem ++ ".mkd".toList) ↔ HasSeparator stem := by
  constructor
  · rintro ⟨c, hc, hsep⟩
    refine ⟨c, (List.mem_append.1 hc).resolve_right fun hmem => ?_, hsep⟩
    rw [isSeparator_extension c hmem] at hsep
    cases hsep
  · rintro ⟨c, hc, hsep⟩
    exact ⟨c, List.mem_append_left _ hc, hsep⟩

section

variable {stem : Text} (h : ¬ Overreached (front ++ s)) (hpass : path.Passes front s)
  (hline : FileLine s gap (stem ++ (".mkd".toList ++ tail)) back)
  (htail : ¬ ".mkd".toList <:+: tail)
include h hpass hline htail

/-- Behind a directory the name is found on the line of the path. -/
theorem first?_fileName_of_hasSeparator (hsep : HasSeparator stem)
    (hname : baseName (stem ++ ".mkd".toList) ≠ []) :
    fileName.first? (front ++ s) = some (baseName (stem ++ ".mkd".toList)) := by
  obtain ⟨hahead, hhere⟩ := passes_of_not_overreached h hpass
  rw [hline.overreaches_iff, not_and] at hhere
  obtain ⟨c, hc, hcsep⟩ := hsep
  have hfound := lastName?_eq_baseName hline.back ⟨c, hc, hcsep⟩ hname htail
    (hhere ⟨c, List.mem_append_left _ hc, hcsep⟩)
  refine hahead.first?_append (n := 1) ?_ fun before => ?_
  · rw [hline.eq]
    exact List.cons_ne_nil _ _
  · rw [hline.fileName_eq, hfound]
    rfl

/-- Without a directory no name is found at the label. -/
theorem first?_fileName_of_not_hasSeparator (hsep : ¬ HasSeparator stem) :
    fileName.first? (front ++ s) =
      fileName.first? (stem ++ (".mkd".toList ++ tail) ++ back) := by
  obtain ⟨hahead, hhere⟩ := passes_of_not_overreached h hpass
  rw [hline.overreaches_iff, not_and] at hhere
  have hnone : lastName? (stem ++ (".mkd".toList ++ tail)) back = none := by
    by_cases hmore : HasSeparator (stem ++ (".mkd".toList ++ tail))
    · rw [← List.append_assoc]
      refine lastName?_append_eq_none hline.back (fun c hc => ?_) htail (hhere hmore)
      exact Bool.eq_false_iff.2 fun hcsep => hsep (hasSeparator_append_extension.1 ⟨c, hc, hcsep⟩)
    · exact lastName?_eq_none (fun c hc => Bool.eq_false_iff.2 fun hcsep =>
        hmore ⟨c, hc, hcsep⟩) back
  rw [Recogniser.first?, hahead.search_append, hline.search_fileName hnone]

end

/-- The path is found at the first label that has one. -/
theorem exists_of_first?_path {p : Text} (h : path.first? raw = some p) :
    ∃ front s gap stem tail back, raw = front ++ s ∧ path.Passes front s ∧
      FileLine s gap (stem ++ (".mkd".toList ++ tail)) back ∧
      Text.trim p = stem ++ ".mkd".toList ∧ ¬ ".mkd".toList <:+: tail := by
  obtain ⟨front, s, n, rfl, -, hfound, hahead⟩ := Recogniser.exists_append_of_search h
  obtain ⟨gap, line, back, hline⟩ := exists_fileLine readPath hfound
  obtain ⟨stem, tail, htrim, rfl, htail⟩ := hline.exists_of_path hfound
  exact ⟨front, s, gap, stem, tail, back, rfl, fun before w ⟨x, hx⟩ hne => hahead x w hx.symm hne,
    hline, htrim, htail⟩

/-- The name of a test without a heading is the last part of the path of its file, if there is such
a part, exactly if no label up to that of the path reads on below its line, and the path has a
directory; or else if a label behind it happens to give the same name, or the file is called
`Unknown`. A label that reads on puts a line break into the name. -/
theorem testName_eq_baseName_iff {r : Report} (hhead : heading.first? raw = none)
    (hread : read raw = .ok r) (hpath : r.filePath ≠ []) :
    ∃ front gap tail back,
      raw = front ++ ("file:".toList ++ (gap ++ (r.filePath ++ (tail ++ back)))) ∧
      '\n' ∉ r.filePath ++ tail ∧ (∀ c ∈ back.head?, c = '\n') ∧
      ".mkd".toList <:+ r.filePath ∧ ¬ ".mkd".toList <:+: tail ∧
      '\n' ∉ baseName r.filePath ∧ (Overreached raw → '\n' ∈ r.testName) ∧
      (r.testName = baseName r.filePath ↔
        baseName r.filePath ≠ [] ∧ ¬ Overreached raw ∧
          (HasSeparator r.filePath ∨
            (fileName.first? (r.filePath ++ (tail ++ back))).getD "Unknown" =
              baseName r.filePath)) := by
  obtain ⟨hname, -, -, hfile, -⟩ := read_eq_ok_iff.1 hread
  rw [nameOf, hhead] at hname
  obtain ⟨p, hfirst⟩ : ∃ p, path.first? raw = some p := by
    refine Option.ne_none_iff_exists'.1 fun hnone => hpath ?_
    rw [hfile, hnone]
    rfl
  rw [hfirst, Option.getD_some] at hfile
  obtain ⟨front, s, gap, stem, tail, back, rfl, hpass, hline, htrim, htail⟩ :=
    exists_of_first?_path hfirst
  rw [htrim] at hfile
  rw [hfile, hasSeparator_append_extension]
  have hbreak : '\n' ∉ baseName (stem ++ ".mkd".toList) := fun hmem => by
    rw [baseName_append] at hmem
    exact hline.newline_notMem (List.mem_append_left _ ((List.rtakeWhile_suffix _ _).subset hmem))
  have hover (h : Overreached (front ++ s)) : '\n' ∈ r.testName := by
    obtain ⟨name, hfound, hmem⟩ := h.exists_name
    rw [hname, hfound]
    exact hmem
  have hne : r.testName ≠ [] := by
    rw [hname]
    cases hfound : fileName.first? (front ++ s) with
    | none => exact List.cons_ne_nil _ _
    | some name =>
      obtain ⟨b, u, n, -, hfound⟩ := Recogniser.exists_of_search hfound
      exact ne_nil_of_fileName hfound
  refine ⟨front, gap, tail, back, ?_, ?_, hline.back, List.suffix_append stem _, htail, hbreak,
    hover, ?_⟩
  · rw [hline.eq]
    simp
  · rw [List.append_assoc]
    exact hline.newline_notMem
  · have hbelow (h : ¬ Overreached (front ++ s)) (hsep : ¬ HasSeparator stem) : r.testName =
        (fileName.first? (stem ++ ".mkd".toList ++ (tail ++ back))).getD "Unknown" := by
      rw [hname, first?_fileName_of_not_hasSeparator h hpass hline htail hsep]
      simp
    constructor
    · intro heq
      have hnot : ¬ Overreached (front ++ s) := fun h => hbreak (heq ▸ hover h)
      refine ⟨heq ▸ hne, hnot, or_iff_not_imp_left.2 fun hsep => ?_⟩
      rw [← hbelow hnot hsep, heq]
    · rintro ⟨hbase, hnot, hcases⟩
      by_cases hsep : HasSeparator stem
      · rw [hname, first?_fileName_of_hasSeparator hnot hpass hline htail hsep hbase]
        rfl
      · rw [hbelow hnot hsep, hcases.resolve_left hsep]

/-- A file in a directory gives the test its name. -/
theorem testName_eq_baseName_directory :
    ∃ r, read "Test Report\n  Passed\n  file: C:\\tests\\OrderTest.mkd\n".toList = .ok r ∧
      r.filePath = "C:\\tests\\OrderTest.mkd".toList ∧ r.testName = baseName r.filePath := by
  obtain ⟨r, hread⟩ : Answers (read
      "Test Report\n  Passed\n  file: C:\\tests\\OrderTest.mkd\n".toList) := by decide +kernel
  have hfile : r.filePath = "C:\\tests\\OrderTest.mkd".toList := by
    obtain ⟨-, -, -, hfile, -⟩ := read_eq_ok_iff.1 hread
    rw [hfile]
    decide +kernel
  have hhead : heading.first? "Test Report\n  Passed\n  file: C:\\tests\\OrderTest.mkd\n".toList =
      none := by decide +kernel
  have hover : ¬ Overreached
      "Test Report\n  Passed\n  file: C:\\tests\\OrderTest.mkd\n".toList := by
    rintro ⟨x, y, heq, hover, -⟩
    have hnone : ∀ y ∈ "Test Report\n  Passed\n  file: C:\\tests\\OrderTest.mkd\n".toList.tails,
        overreaches y = false := by decide +kernel
    rw [hnone y ((List.mem_tails _ _).2 ⟨x, heq.symm⟩)] at hover
    cases hover
  refine ⟨r, hread, hfile, ?_⟩
  have hpath : r.filePath ≠ [] := by
    rw [hfile]
    decide
  obtain ⟨_, _, _, _, -, -, -, -, -, -, -, hiff⟩ := testName_eq_baseName_iff hhead hread hpath
  refine hiff.2 ⟨?_, hover, Or.inl ?_⟩
  · rw [hfile]
    decide
  · rw [hfile]
    exact ⟨'\\', by decide, rfl⟩

/-- Without a directory the test has no name, and with an extension on the next line its name goes
on there. -/
theorem testName_ne_baseName :
    (∃ r, read "file: OrderTest.mkd\n".toList = .ok r ∧ r.filePath = "OrderTest.mkd".toList ∧
        baseName r.filePath = "OrderTest".toList ∧ r.testName = "Unknown".toList) ∧
      ∃ r, read "file: a/b.mkd\nc.mkd\n".toList = .ok r ∧ r.filePath = "a/b.mkd".toList ∧
        baseName r.filePath = "b".toList ∧ r.testName = "b.mkd\nc".toList := by
  exact ⟨⟨_, rfl, by decide +kernel⟩, ⟨_, rfl, by decide +kernel⟩⟩

end ScriptAudit.Report
