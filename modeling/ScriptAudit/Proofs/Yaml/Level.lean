import ScriptAudit.Proofs.Fault
import ScriptAudit.Yaml.Value.Meaning

/-!
# Refusals level by level

A node has no value because of one of its parts: a text that does not suit its type, a node that
cannot be a scalar, or something that does not suit the collection around it. `Node.parts` lists
what is looked at in a collection, merged pairs included, and `Node.level` what is looked at in a
node at a certain depth. `Node.value?_eq_error_iff` says which part decides: the first one of the
least deep level that has any such part. A node that has the type of a collection without being one
is found out one level below itself, so that no level is left out (`level_eq_nil`). If the part is
at fault, a text does not suit its type (`Value.Unfit`), or a mapping is used as a time.
-/

namespace ScriptAudit.Yaml

/-! ## Texts that do not suit their type -/

/-- Whether a text has this fault under a type. Only truth values, numbers and times have texts
that do not suit them. -/
inductive Value.Unfit (t : Text) : Tag → Fault → Prop
  | bool {f : Fault} (h : boolOf t = .error f) : Unfit t .bool f
  | int {f : Fault} (h : intOf t = .error f) : Unfit t .int f
  | float {f : Fault} (h : floatOf t = .error f) : Unfit t .float f
  | timestamp {f : Fault} (h : timestampOf t = .error f) : Unfit t .timestamp f

theorem Value.ofScalar_eq_fault_iff {tag : Tag} {t : Text} {f : Fault} :
    ofScalar tag t = .error (.fault f) ↔ Unfit t tag f := by
  have hread {α : Type} {e : Except Fault α} :
      e.mapError Refusal.fault = .error (.fault f) ↔ e = .error f := by
    cases e <;> simp [Except.mapError]
  constructor
  · intro h
    cases tag with
    | bool => exact .bool (hread.1 (map_eq_error_iff.1 h))
    | int => exact .int (hread.1 (map_eq_error_iff.1 h))
    | float => exact .float (hread.1 (map_eq_error_iff.1 h))
    | timestamp => exact .timestamp (hread.1 h)
    | binary =>
      rw [ofScalar] at h
      split at h
      · split at h <;> cases h
      · cases h
    | _ => cases h
  · rintro (h | h | h | h)
    · exact map_eq_error_iff.2 (hread.2 h)
    · exact map_eq_error_iff.2 (hread.2 h)
    · exact map_eq_error_iff.2 (hread.2 h)
    · exact hread.2 h

/-! ## Parts -/

/-- A part of a collection: a node, or something that does not suit the collection. -/
inductive Part
  | node (n : Node)
  | misfit

namespace Node

/-- Whether a node is looked into. -/
def isCollection : Node → Bool
  | scalar tag _ | sequence tag _ | mapping tag _ => isCollectionTag tag
  | enclosing _ => false

/-- Whether a node refers to a collection around it. -/
def isEnclosing : Node → Bool
  | enclosing _ => true
  | _ => false

/-- Why a node has no value by itself. -/
def refusal? (n : Node) : Option Refusal :=
  if n.isCollection || n.isEnclosing then none
  else
    match n.scalarValue with
    | .ok _ => none
    | .error r => some r

/-- The parts of a pair, whose key is a scalar. -/
def pairParts (e : Node × Node) : List Part :=
  if e.1.isCollection || e.1.isEnclosing then [.misfit] else [.node e.1, .node e.2]

/-- The parts of an item that stands for a pair. -/
def itemParts : Node → List Part
  | mapping _ [(k, v)] => [.node k, .node v]
  | _ => [.misfit]

/-- The parts of a mapping after merging. -/
def entryParts (es : List (Node × Node)) : List Part :=
  match merged? es with
  | some es => es.flatMap pairParts
  | none => [.misfit]

/-- What is looked at in a node. -/
def parts : Node → List Part
  | sequence .seq items => items.map .node
  | sequence .omap items => items.flatMap itemParts
  | sequence .pairs items => items.flatMap itemParts
  | mapping .map es => entryParts es
  | mapping .set es => entryParts es
  | n => if n.isCollection then [.misfit] else []

theorem parts_scalar (tag : Tag) (t : Text) :
    (scalar tag t).parts = if isCollectionTag tag then [.misfit] else [] :=
  rfl

end Node

namespace Part

/-- Why a part has no value by itself. -/
def refusal? : Part → Option Refusal
  | node n => n.refusal?
  | misfit => some .unsuitable

/-- What is looked at in a part. -/
def parts : Part → List Part
  | node n => n.parts
  | misfit => []

/-- The node of a part that is looked into. -/
def collection? : Part → Option Node
  | node n => if n.isCollection then some n else none
  | misfit => none

/-- Looks at parts: the first refusal, or else the collections. -/
def survey (ps : List Part) : Except Refusal (List Node) :=
  match ps.findSome? refusal? with
  | some r => .error r
  | none => .ok (ps.filterMap collection?)

theorem survey_eq_error_iff {ps : List Part} {r : Refusal} :
    survey ps = .error r ↔ ps.findSome? refusal? = some r := by
  rw [survey]
  cases ps.findSome? refusal? <;> simp

theorem survey_eq_ok_iff {ps : List Part} {ns : List Node} :
    survey ps = .ok ns ↔ ps.findSome? refusal? = none ∧ ps.filterMap collection? = ns := by
  rw [survey]
  cases ps.findSome? refusal? <;> simp

theorem survey_append (ps qs : List Part) :
    survey (ps ++ qs) = survey ps >>= fun ns => survey qs >>= fun ms => pure (ns ++ ms) := by
  rw [survey, survey, survey, List.findSome?_append, List.filterMap_append]
  cases ps.findSome? refusal? with
  | some r => rfl
  | none => cases qs.findSome? refusal? <;> rfl

/-- Looking at one thing after the other is looking at the parts of all of them. -/
theorem mapM_eq_survey {α : Type} {f : α → Except Refusal (List Node)} {g : α → List Part}
    {xs : List α} (h : ∀ x ∈ xs, f x = survey (g x)) :
    (xs.mapM f >>= fun nss => pure nss.flatten) = survey (xs.flatMap g) := by
  induction xs with
  | nil => rfl
  | cons x xs ih =>
    rw [List.flatMap_cons, survey_append, ← ih fun y hy => h y (List.mem_cons_of_mem x hy),
      ← h x List.mem_cons_self, List.mapM_cons]
    cases f x with
    | error => rfl
    | ok ns => cases xs.mapM f <;> rfl

end Part

namespace Node

/-! ## Looking at nodes -/

theorem survey_node (n : Node) : Part.survey [.node n] =
    match n.refusal? with
    | some r => .error r
    | none => .ok (if n.isCollection then [n] else []) := by
  have hfirst : [Part.node n].findSome? Part.refusal? = n.refusal? := by
    rw [List.findSome?_singleton, Part.refusal?]
  rw [Part.survey, hfirst]
  cases n.refusal? with
  | some r => rfl
  | none => cases h : n.isCollection <;> simp [Part.collection?, h]

theorem inspect_eq_survey (n : Node) : n.inspect = Part.survey [.node n] := by
  rw [survey_node, refusal?]
  have hopen (h : n.isEnclosing = false) : n.inspect =
      if n.isCollection then .ok [n] else n.scalarValue.map fun _ => [] := by
    cases n with
    | enclosing => cases h
    | scalar | sequence | mapping => rfl
  cases he : n.isEnclosing with
  | true =>
    cases n with
    | enclosing => rfl
    | scalar | sequence | mapping => cases he
  | false =>
    rw [hopen he]
    cases n.isCollection with
    | true => rfl
    | false => cases n.scalarValue <;> rfl

theorem inspectPair_eq_survey (e : Node × Node) : inspectPair e = Part.survey (pairParts e) := by
  obtain ⟨k, v⟩ := e
  rw [inspectPair, pairParts, inspect_eq_survey, survey_node]
  cases hk : k.isCollection with
  | true =>
    have hnone : k.refusal? = none := by simp [refusal?, hk]
    rw [hnone]
    rfl
  | false =>
    cases he : k.isEnclosing with
    | true =>
      have hnone : k.refusal? = none := by simp [refusal?, he]
      rw [hnone]
      cases k with
      | enclosing isMapping => rfl
      | scalar | sequence | mapping => cases he
    | false =>
      show _ = Part.survey ([.node k] ++ [.node v])
      rw [Part.survey_append, survey_node, ← inspect_eq_survey v]
      cases k.refusal? with
      | some r => rfl
      | none =>
        rw [hk]
        cases k with
        | enclosing => cases he
        | scalar | sequence | mapping => cases v.inspect <;> rfl

theorem inspectItem_eq_survey (n : Node) : inspectItem n = Part.survey (itemParts n) := by
  match n with
  | mapping _ [(k, v)] =>
    show (k.inspect >>= fun ns => v.inspect >>= fun ms => pure (ns ++ ms)) =
      Part.survey ([.node k] ++ [.node v])
    rw [Part.survey_append, inspect_eq_survey, inspect_eq_survey]
  | mapping _ [] | mapping _ (_ :: _ :: _) | scalar _ _ | sequence _ _ | enclosing _ => rfl

theorem pairs_eq_survey (es : List (Node × Node)) :
    contents.pairs es = Part.survey (entryParts es) := by
  rw [contents.pairs, entryParts]
  cases merged? es with
  | none => rfl
  | some es => exact Part.mapM_eq_survey fun e _ => inspectPair_eq_survey e

/-- Looking into a collection is looking at its parts. -/
theorem contents_eq_survey {n : Node} (h : n.isCollection = true) :
    n.contents = Part.survey n.parts := by
  match n with
  | sequence .seq items =>
    show (items.mapM inspect >>= fun nss => pure nss.flatten) = Part.survey (items.map .node)
    rw [Part.mapM_eq_survey fun n _ => inspect_eq_survey n, List.map_eq_flatMap]
  | sequence .omap items => exact Part.mapM_eq_survey fun n _ => inspectItem_eq_survey n
  | sequence .pairs items => exact Part.mapM_eq_survey fun n _ => inspectItem_eq_survey n
  | mapping .map es => exact pairs_eq_survey es
  | mapping .set es => exact pairs_eq_survey es
  | sequence .map _ | sequence .set _ | mapping .seq _ | mapping .omap _ | mapping .pairs _ => rfl
  | scalar tag t =>
    rw [parts_scalar, if_pos (show isCollectionTag tag = true from h)]
    rfl
  | enclosing _ => cases h

/-! ## Levels -/

/-- What is looked at in a node at a depth. -/
def level (n : Node) : Nat → List Part
  | 0 => [.node n]
  | k + 1 => (n.level k).flatMap Part.parts

/-- The first refusal at a depth. -/
def refusalAt? (n : Node) (k : Nat) : Option Refusal := (n.level k).findSome? Part.refusal?

/-- Whether this is why a node has no value: the first refusal of the least deep level with one. -/
def Refused (n : Node) (why : Refusal) : Prop :=
  ∃ k, (∀ j < k, n.refusalAt? j = none) ∧ n.refusalAt? k = some why

theorem parts_of_not_isCollection {n : Node} (h : n.isCollection = false) : n.parts = [] := by
  match n with
  | enclosing _ => rfl
  | scalar tag _ | sequence tag _ | mapping tag _ => cases tag <;> first | rfl | cases h

/-- The parts of some parts are those of the collections among them. -/
theorem flatMap_parts (ps : List Part) :
    ps.flatMap Part.parts = (ps.filterMap Part.collection?).flatMap parts := by
  induction ps with
  | nil => rfl
  | cons p ps ih =>
    rw [List.flatMap_cons, ih]
    cases p with
    | misfit => rfl
    | node n =>
      cases h : n.isCollection with
      | true => simp [Part.parts, Part.collection?, h]
      | false => simp [Part.parts, Part.collection?, h, parts_of_not_isCollection h]

theorem isCollection_of_mem {ps : List Part} {n : Node} (h : n ∈ ps.filterMap Part.collection?) :
    n.isCollection = true := by
  obtain ⟨p, -, hp⟩ := List.mem_filterMap.1 h
  cases p with
  | misfit => cases hp
  | node m =>
    rw [Part.collection?] at hp
    split at hp
    · next hm => rwa [← Option.some.inj hp]
    · cases hp

theorem inspectLevels_nil (fuel : Nat) : inspectLevels fuel [] = .ok () := by
  cases fuel <;> rfl

/-- Each step looks at the next level. -/
theorem inspectLevels_succ (fuel : Nat) (n : Node) (k : Nat) :
    inspectLevels (fuel + 1) ((n.level k).filterMap Part.collection?) =
      Part.survey (n.level (k + 1)) >>= inspectLevels fuel := by
  have hnext : Part.survey (n.level (k + 1)) =
      ((n.level k).filterMap Part.collection?).mapM contents >>= fun nss => pure nss.flatten := by
    rw [level, flatMap_parts]
    exact (Part.mapM_eq_survey fun m hm => contents_eq_survey (isCollection_of_mem hm)).symm
  rw [hnext]
  generalize (n.level k).filterMap Part.collection? = ns
  cases ns with
  | nil => exact (inspectLevels_nil fuel).symm
  | cons m ns =>
    show ((m :: ns).mapM contents >>= fun nss => inspectLevels fuel nss.flatten) = _
    cases (m :: ns).mapM contents <;> rfl

/-- The levels below a level are looked at in order, as far as the fuel goes. -/
theorem inspectLevels_eq_error_iff {fuel : Nat} {n : Node} {k : Nat} {r : Refusal} :
    inspectLevels fuel ((n.level k).filterMap Part.collection?) = .error r ↔
      ∃ j, j < fuel ∧ (∀ i < j, n.refusalAt? (k + 1 + i) = none) ∧
        n.refusalAt? (k + 1 + j) = some r := by
  induction fuel generalizing k with
  | zero => simp [inspectLevels]
  | succ fuel ih =>
    rw [inspectLevels_succ, bind_eq_error_iff]
    constructor
    · rintro (hfirst | ⟨ns, hns, hlater⟩)
      · exact ⟨0, Nat.succ_pos _, by simp, Part.survey_eq_error_iff.1 hfirst⟩
      · obtain ⟨hclean, rfl⟩ := Part.survey_eq_ok_iff.1 hns
        obtain ⟨j, hj, hbefore, hj'⟩ := ih.1 hlater
        refine ⟨j + 1, Nat.succ_lt_succ hj, fun i hi => ?_, by rwa [← Nat.add_right_comm] at hj'⟩
        cases i with
        | zero => exact hclean
        | succ i =>
          have := hbefore i (Nat.lt_of_succ_lt_succ hi)
          rwa [← Nat.add_right_comm] at this
    · rintro ⟨j, hj, hbefore, hfirst⟩
      cases j with
      | zero => exact Or.inl (Part.survey_eq_error_iff.2 hfirst)
      | succ j =>
        refine Or.inr ⟨_, Part.survey_eq_ok_iff.2 ⟨hbefore 0 (Nat.succ_pos j), rfl⟩, ih.2
          ⟨j, Nat.lt_of_succ_lt_succ hj, fun i hi => ?_, by rwa [Nat.add_right_comm]⟩⟩
        rw [Nat.add_right_comm]
        exact hbefore (i + 1) (Nat.succ_lt_succ hi)

/-! ## Depth -/

theorem depth_le_depthItems {ns : List Node} {n : Node} (h : n ∈ ns) :
    n.depth ≤ depthItems ns := by
  induction ns with
  | nil => cases h
  | cons m ns ih =>
    rw [depthItems]
    rcases List.mem_cons.1 h with rfl | h
    · exact Nat.le_max_left _ _
    · exact Nat.le_trans (ih h) (Nat.le_max_right _ _)

/-- Whether a pair lies no deeper than a bound. -/
def PairWithin (d : Nat) (e : Node × Node) : Prop := e.1.depth ≤ d ∧ e.2.depth ≤ d

theorem pairWithin_depthEntries {es : List (Node × Node)} {e : Node × Node} (h : e ∈ es) :
    PairWithin (depthEntries es) e := by
  induction es with
  | nil => cases h
  | cons f es ih =>
    rw [PairWithin, depthEntries]
    rcases List.mem_cons.1 h with rfl | h
    · omega
    · have := ih h
      rw [PairWithin] at this
      omega

theorem pairWithin_of_mapping {d : Nat} {tag : Tag} {es : List (Node × Node)}
    (h : (mapping tag es).depth ≤ d) : ∀ e ∈ es, PairWithin d e := by
  intro e he
  have := pairWithin_depthEntries he
  rw [PairWithin] at this ⊢
  rw [depth] at h
  omega

mutual

/-- Pairs after merging lie no deeper than the pairs that they come from. -/
theorem pairWithin_split? {d : Nat} : ∀ {es lent own : List (Node × Node)},
    split? es = some (lent, own) → (∀ e ∈ es, PairWithin d e) → ∀ e ∈ lent ++ own, PairWithin d e
  | [], lent, own, h, _ => by
    cases h
    exact nofun
  | (k, v) :: es, lent, own, h, hes => by
    obtain ⟨⟨hk, hv⟩, hes⟩ := List.forall_mem_cons.1 hes
    rw [split?] at h
    obtain ⟨⟨lent', own'⟩, hsplit, h⟩ := Option.bind_eq_some_iff.1 h
    have hrest := pairWithin_split? hsplit hes
    -- the pair goes to its own place, or it lends the pairs of its value
    have hplaced {k' : Node} (hk' : k'.depth ≤ d) :
        ∀ e ∈ lent' ++ (k', v) :: own', PairWithin d e := by
      intro e he
      rcases List.mem_append.1 he with he | he
      · exact hrest e (List.mem_append_left _ he)
      · rcases List.mem_cons.1 he with rfl | he
        · exact ⟨hk', hv⟩
        · exact hrest e (List.mem_append_right _ he)
    dsimp only at h
    split at h
    · obtain ⟨source, hsource, h⟩ := Option.bind_eq_some_iff.1 h
      cases h
      intro e he
      rw [List.append_assoc] at he
      rcases List.mem_append.1 he with he | he
      · exact pairWithin_source? hsource hv e he
      · exact hrest e he
    · split at h
      · cases h
        exact hplaced (Nat.zero_le d)
      · cases h
        exact hplaced hk
    · cases h
      exact hplaced hk

theorem pairWithin_source? {d : Nat} : ∀ {n : Node} {es : List (Node × Node)},
    source? n = some es → n.depth ≤ d → ∀ e ∈ es, PairWithin d e
  | mapping tag fs, es, h, hn => by
    rw [source?] at h
    obtain ⟨⟨lent, own⟩, hsplit, h⟩ := Option.bind_eq_some_iff.1 h
    cases h
    exact pairWithin_split? hsplit (pairWithin_of_mapping hn)
  | sequence tag items, es, h, hn => by
    rw [source?] at h
    refine pairWithin_sources? h fun m hm => ?_
    have := depth_le_depthItems hm
    rw [depth] at hn
    omega
  | enclosing isMapping, es, h, _ => by
    rw [source?] at h
    split at h
    · cases h
      exact nofun
    · cases h
  | scalar tag t, es, h, _ => by cases h

theorem pairWithin_sources? {d : Nat} : ∀ {ns : List Node} {es : List (Node × Node)},
    sources? ns = some es → (∀ n ∈ ns, n.depth ≤ d) → ∀ e ∈ es, PairWithin d e
  | [], es, h, _ => by
    cases h
    exact nofun
  | mapping tag fs :: ns, es, h, hns => by
    obtain ⟨hn, hns⟩ := List.forall_mem_cons.1 hns
    rw [sources?] at h
    obtain ⟨⟨lent, own⟩, hsplit, h⟩ := Option.bind_eq_some_iff.1 h
    obtain ⟨later, hlater, h⟩ := Option.bind_eq_some_iff.1 h
    cases h
    intro e he
    rcases List.mem_append.1 he with he | he
    · exact pairWithin_sources? hlater hns e he
    · exact pairWithin_split? hsplit (pairWithin_of_mapping hn) e he
  | enclosing true :: ns, es, h, hns => by
    rw [sources?] at h
    exact pairWithin_sources? h (List.forall_mem_cons.1 hns).2
  | enclosing false :: _, _, h, _ => by cases h
  | sequence _ _ :: _, _, h, _ => by cases h
  | scalar _ _ :: _, _, h, _ => by cases h

end

end Node

/-- The number of levels that a part has below itself; what does not suit a collection has none. -/
def Part.height : Part → Nat
  | node n => n.depth + 1
  | misfit => 0

namespace Node

/-- The parts of an item lie less deep than a part that holds it. -/
theorem height_le_of_mem_itemParts {n : Node} {p : Part} (h : p ∈ itemParts n) :
    p.height ≤ n.depth := by
  match n, h with
  | mapping tag [(k, v)], h =>
    obtain ⟨hk, hv⟩ := pairWithin_depthEntries (List.mem_singleton_self (k, v))
    rcases List.mem_cons.1 h with rfl | h
    · exact Nat.succ_le_succ hk
    · rw [List.mem_singleton.1 h]
      exact Nat.succ_le_succ hv
  | mapping _ [], h | mapping _ (_ :: _ :: _), h | scalar _ _, h | sequence _ _, h
  | enclosing _, h =>
    rw [List.mem_singleton.1 h]
    exact Nat.zero_le _

theorem height_le_of_mem_entryParts {es : List (Node × Node)} {p : Part} (h : p ∈ entryParts es) :
    p.height ≤ depthEntries es + 1 := by
  rw [entryParts, merged?] at h
  cases hsplit : split? es with
  | none =>
    rw [hsplit] at h
    rw [List.mem_singleton.1 h]
    exact Nat.zero_le _
  | some both =>
    obtain ⟨lent, own⟩ := both
    rw [hsplit] at h
    obtain ⟨e, he, hp⟩ := List.mem_flatMap.1 h
    obtain ⟨hk, hv⟩ := pairWithin_split? hsplit (fun _ => pairWithin_depthEntries) e he
    rw [pairParts] at hp
    split at hp
    · rw [List.mem_singleton.1 hp]
      exact Nat.zero_le _
    · rcases List.mem_cons.1 hp with rfl | hp
      · exact Nat.succ_le_succ hk
      · rw [List.mem_singleton.1 hp]
        exact Nat.succ_le_succ hv

/-- The parts of a node lie less deep than it does. -/
theorem height_le_of_mem_parts {n : Node} {p : Part} (h : p ∈ n.parts) : p.height ≤ n.depth := by
  match n, h with
  | sequence .seq items, h =>
    obtain ⟨m, hm, rfl⟩ := List.mem_map.1 h
    exact Nat.succ_le_succ (depth_le_depthItems hm)
  | sequence .omap items, h | sequence .pairs items, h =>
    obtain ⟨m, hm, hp⟩ := List.mem_flatMap.1 h
    exact Nat.le_succ_of_le
      (Nat.le_trans (height_le_of_mem_itemParts hp) (depth_le_depthItems hm))
  | mapping .map es, h | mapping .set es, h => exact height_le_of_mem_entryParts h
  | sequence .map _, h | sequence .set _, h | mapping .seq _, h | mapping .omap _, h
  | mapping .pairs _, h =>
    rw [List.mem_singleton.1 h]
    exact Nat.zero_le _
  | scalar tag t, h =>
    rw [parts_scalar] at h
    split at h
    · rw [List.mem_singleton.1 h]
      exact Nat.zero_le _
    · cases h

/-- There is nothing to look at beyond the level below the depth of a node. -/
theorem level_eq_nil {n : Node} {k : Nat} (h : n.depth + 1 < k) : n.level k = [] := by
  have hheight : ∀ k, ∀ p ∈ n.level k, p.height + k ≤ n.depth + 1 := by
    intro k
    induction k with
    | zero => exact fun p hp => by rw [List.mem_singleton.1 hp]; exact Nat.le_refl _
    | succ k ih =>
      intro p hp
      obtain ⟨q, hq, hpq⟩ := List.mem_flatMap.1 hp
      cases q with
      | misfit => cases hpq
      | node m =>
        have hm : m.depth + 1 + k ≤ n.depth + 1 := ih (.node m) hq
        have := height_le_of_mem_parts hpq
        omega
  refine List.eq_nil_iff_forall_not_mem.2 fun p hp => ?_
  have := hheight k p hp
  omega

/-- **The first refusal of the least deep level decides.** -/
theorem value?_eq_error_iff {n : Node} {r : Refusal} : n.value? = .error r ↔ n.Refused r := by
  have hsteps : n.value? = .error r ↔ n.refusalAt? 0 = some r ∨ n.refusalAt? 0 = none ∧
      ∃ j, j < n.depth + 1 ∧ (∀ i < j, n.refusalAt? (0 + 1 + i) = none) ∧
        n.refusalAt? (0 + 1 + j) = some r := by
    rw [value?, inspect_eq_survey, bind_eq_error_iff, Part.survey_eq_error_iff]
    refine or_congr Iff.rfl ?_
    constructor
    · rintro ⟨ns, hns, h⟩
      obtain ⟨hclean, rfl⟩ := Part.survey_eq_ok_iff.1 hns
      rcases bind_eq_error_iff.1 h with h | ⟨_, _, h⟩
      · exact ⟨hclean, inspectLevels_eq_error_iff.1 h⟩
      · cases h
    · rintro ⟨hclean, h⟩
      exact ⟨_, Part.survey_eq_ok_iff.2 ⟨hclean, rfl⟩,
        bind_eq_error_iff.2 (Or.inl (inspectLevels_eq_error_iff.2 h))⟩
  rw [hsteps]
  constructor
  · rintro (hfirst | ⟨hclean, j, -, hbefore, hj⟩)
    · exact ⟨0, fun j hj => absurd hj (Nat.not_lt_zero j), hfirst⟩
    · refine ⟨j + 1, fun i hi => ?_, by rwa [Nat.zero_add, Nat.add_comm] at hj⟩
      cases i with
      | zero => exact hclean
      | succ i =>
        have := hbefore i (Nat.lt_of_succ_lt_succ hi)
        rwa [Nat.zero_add, Nat.add_comm] at this
  · rintro ⟨k, hbefore, hk⟩
    cases k with
    | zero => exact Or.inl hk
    | succ j =>
      refine Or.inr ⟨hbefore 0 (Nat.succ_pos j), j, ?_, fun i hi => ?_, ?_⟩
      · -- a level with a refusal is not empty
        by_contra hdeep
        rw [refusalAt?, level_eq_nil (by omega)] at hk
        cases hk
      · rw [Nat.zero_add, Nat.add_comm]
        exact hbefore (i + 1) (Nat.succ_lt_succ hi)
      · rwa [Nat.zero_add, Nat.add_comm]

/-- A node that is used as a scalar has a text that does not suit its type, or is a mapping in place
of a time. -/
theorem unfit_of_scalarValue {n : Node} {f : Fault} (h : n.scalarValue = .error (.fault f)) :
    f = scalarValue.noTimeText ∨ ∃ t, n.scalarText? = some t ∧ Value.Unfit t n.tag f := by
  unfold scalarValue at h
  split at h
  · cases h
  · cases h
    exact Or.inl rfl
  · next t _ ht => exact Or.inr ⟨t, ht, Value.ofScalar_eq_fault_iff.1 h⟩

/-- A fault is that of a node in the node. -/
theorem exists_unfit_of_refused {n : Node} {f : Fault} (h : n.Refused (.fault f)) :
    ∃ k m, Part.node m ∈ n.level k ∧
      (f = scalarValue.noTimeText ∨ ∃ t, m.scalarText? = some t ∧ Value.Unfit t m.tag f) := by
  obtain ⟨k, -, hk⟩ := h
  obtain ⟨p, hp, hfault⟩ := List.exists_of_findSome?_eq_some hk
  cases p with
  | misfit => cases hfault
  | node m =>
    refine ⟨k, m, hp, unfit_of_scalarValue ?_⟩
    rw [Part.refusal?, refusal?] at hfault
    split at hfault
    · cases hfault
    · cases hvalue : m.scalarValue with
      | ok => simp [hvalue] at hfault
      | error r => simpa [hvalue] using hfault

end Node

end ScriptAudit.Yaml
