import ScriptAudit.Proofs.Trace.Nesting

/-!
# Who calls whom

The caller of a command is the latest command before it of a lower level. The builder of a forest
keeps a stack instead of looking back, and ends commands as soon as one of their level comes.

* `LevelOrdered` — forests in which levels rise from callers to calls and never rise from one call of
  a command to the next.
* `Builder.Admits`, `Builder.Sound` — what the stack keeps, and `levelOrdered_forest`: every forest
  that is built is ordered by levels.
* `LevelOrdered.called` — in such a forest the caller of each command is the latest one before it of
  a lower level.
* `bareAll_forest` — results change nothing but the outcomes of commands.
* `callers_of_forest` — the rule in terms of tokens.
-/

namespace ScriptAudit.Trace

/-! ## Forests that are ordered by levels -/

namespace Node

/-- The level of the command of a node. -/
def level (n : Node) : Nat := n.run.level

end Node

/-- Calls have higher levels than their callers, and no higher ones than the calls beside them that
came before. -/
inductive LevelOrdered : List Node → Prop
  /-- There is no tree. -/
  | nil : LevelOrdered []
  /-- A tree stands before others. -/
  | cons {r : Run} {calls ns : List Node} (below : LevelOrdered calls)
      (lt : ∀ n ∈ calls, r.level < n.level) (beside : LevelOrdered ns)
      (le : ∀ n ∈ ns, n.level ≤ r.level) : LevelOrdered (.mk r calls :: ns)

/-- The nodes of a forest that stand beside one another: its roots, or the calls of one node. -/
inductive Siblings (roots : List Node) : List Node → Prop
  /-- The roots of the forest. -/
  | roots : Siblings roots roots
  /-- The calls of a node. -/
  | calls {ns : List Node} {n : Node} (h : Siblings roots ns) (hn : n ∈ ns) :
      Siblings roots n.children

/-- A way down from one of the nodes, from call to call. -/
def Descends : (ns path : List Node) → Prop
  | _, [] => True
  | ns, n :: path => n ∈ ns ∧ Descends n.children path

namespace LevelOrdered

variable {ns : List Node}

theorem children (h : LevelOrdered ns) {n : Node} (hn : n ∈ ns) :
    LevelOrdered n.children ∧ ∀ m ∈ n.children, n.level < m.level := by
  induction h with
  | nil => cases hn
  | cons below lt _ _ _ ih =>
    rcases List.mem_cons.1 hn with rfl | hn
    · exact ⟨below, lt⟩
    · exact ih hn

theorem siblings (h : LevelOrdered ns) {ms : List Node} (hms : Siblings ns ms) :
    LevelOrdered ms := by
  induction hms with
  | roots => exact h
  | calls _ hn ih => exact (ih.children hn).1

/-- Levels never rise from left to right. -/
theorem pairwise_le (h : LevelOrdered ns) : (ns.map Node.level).Pairwise (· ≥ ·) := by
  induction h with
  | nil => exact .nil
  | cons _ _ _ le _ ih =>
    rw [List.map_cons, List.pairwise_cons, List.forall_mem_map]
    exact ⟨le, ih⟩

/-- Levels rise on the way down. -/
theorem pairwise_lt (h : LevelOrdered ns) {path : List Node} (hpath : Descends ns path) :
    (path.map Node.level).Pairwise (· < ·) := by
  induction path generalizing ns with
  | nil => exact .nil
  | cons n path ih =>
    obtain ⟨hn, hpath⟩ := hpath
    obtain ⟨hbelow, hlt⟩ := h.children hn
    have hrest := ih hbelow hpath
    rw [List.map_cons, List.pairwise_cons, List.forall_mem_map]
    refine ⟨fun m hm => ?_, hrest⟩
    cases path with
    | nil => cases hm
    | cons k path =>
      have hk : n.level < k.level := hlt k hpath.1
      rcases List.mem_cons.1 hm with rfl | hm
      · exact hk
      · rw [List.map_cons, List.pairwise_cons, List.forall_mem_map] at hrest
        exact Nat.lt_trans hk (hrest.1 m hm)

/-- A tree may be put behind others whose roots have no lower levels. -/
theorem concat (h : LevelOrdered ns) {n : Node} (hn : LevelOrdered [n])
    (hle : ∀ m ∈ ns, n.level ≤ m.level) : LevelOrdered (ns ++ [n]) := by
  induction h with
  | nil => exact hn
  | @cons r calls ns below lt _ le _ ih =>
    refine .cons below lt (ih fun m hm => hle m (List.mem_cons_of_mem _ hm)) fun m hm => ?_
    rcases List.mem_append.1 hm with hm | hm
    · exact le m hm
    · rw [List.mem_singleton.1 hm]
      exact hle (.mk r calls) List.mem_cons_self

theorem singleton {r : Run} {calls : List Node} (hcalls : LevelOrdered calls)
    (hlt : ∀ n ∈ calls, r.level < n.level) : LevelOrdered [.mk r calls] :=
  .cons hcalls hlt .nil (List.forall_mem_nil _)

end LevelOrdered

/-! ## The stack of the builder -/

namespace Builder

variable {trees : List Node} {level : Nat} {path : List Frame}

/-- Below the innermost command under way there is a place for a tree of the given level: the level
is higher than that of the command, and no higher than those of the calls that it has made. The
commands further out have such a place for the tree of the command itself. -/
def Admits (trees : List Node) : (level : Nat) → List Frame → Prop
  | level, [] => LevelOrdered trees.reverse ∧ ∀ n ∈ trees, level ≤ n.level
  | level, f :: fs =>
    (LevelOrdered f.calls.reverse ∧ ∀ n ∈ f.calls, f.run.level < n.level ∧ level ≤ n.level) ∧
      f.run.level < level ∧ Admits trees f.run.level fs

/-- The innermost command under way has made no call, and there is a place for its tree. -/
def Sound (b : Builder) : Prop :=
  match b.path with
  | [] => b.trees = []
  | f :: fs => f.calls = [] ∧ Admits b.trees f.run.level fs

/-- The tree of a command that ends. -/
theorem levelOrdered_tree {f : Frame} {n : Node} (hn : LevelOrdered [n])
    (hcalls : LevelOrdered f.calls.reverse)
    (hle : ∀ m ∈ f.calls, f.run.level < m.level ∧ n.level ≤ m.level) (hlt : f.run.level < n.level) :
    LevelOrdered [.mk f.run (n :: f.calls).reverse] := by
  rw [List.reverse_cons]
  refine .singleton (hcalls.concat hn fun m hm => (hle m (List.mem_reverse.1 hm)).2) fun m hm => ?_
  rcases List.mem_append.1 hm with hm | hm
  · exact (hle m (List.mem_reverse.1 hm)).1
  · rwa [List.mem_singleton.1 hm]

/-- After the commands of a level and of higher ones have ended, there is a place for a tree of that
level. -/
theorem admits_closeWhile {n : Node} (hn : LevelOrdered [n]) (h : Admits trees n.level path)
    (hle : level ≤ n.level) :
    let b := closeWhile (fun above => level ≤ above.level) trees [n] path
    Admits b.trees level b.path := by
  induction path generalizing n with
  | nil =>
    obtain ⟨htrees, hlower⟩ := h
    refine ⟨?_, ?_⟩
    · show LevelOrdered (n :: trees).reverse
      rw [List.reverse_cons]
      exact htrees.concat hn fun m hm => hlower m (List.mem_reverse.1 hm)
    · intro m hm
      rcases List.mem_cons.1 hm with rfl | hm
      · exact hle
      · exact Nat.le_trans hle (hlower m hm)
  | cons f fs ih =>
    obtain ⟨⟨hcalls, hlower⟩, hlt, houter⟩ := h
    have htree := levelOrdered_tree hn hcalls hlower hlt
    rw [closeWhile]
    split
    · next hends => exact ih htree houter (of_decide_eq_true hends)
    · next hstays =>
      rw [decide_eq_true_eq, Nat.not_le] at hstays
      refine ⟨⟨?_, fun m hm => ?_⟩, hstays, houter⟩
      · show LevelOrdered (n :: f.calls).reverse
        rw [List.reverse_cons]
        exact hcalls.concat hn fun m hm => (hlower m (List.mem_reverse.1 hm)).2
      · rcases List.mem_cons.1 hm with rfl | hm
        · exact ⟨hlt, hle⟩
        · exact ⟨(hlower m hm).1, Nat.le_trans hle (hlower m hm).2⟩

theorem levelOrdered_closeWhile_true {n : Node} (hn : LevelOrdered [n])
    (h : Admits trees n.level path) :
    LevelOrdered (closeWhile (fun _ => true) trees [n] path).trees.reverse := by
  induction path generalizing n with
  | nil =>
    show LevelOrdered (n :: trees).reverse
    rw [List.reverse_cons]
    exact h.1.concat hn fun m hm => h.2 m (List.mem_reverse.1 hm)
  | cons f fs ih =>
    obtain ⟨⟨hcalls, hlower⟩, hlt, houter⟩ := h
    rw [closeWhile, if_pos rfl]
    exact ih (levelOrdered_tree hn hcalls hlower hlt) houter

theorem sound_call {b : Builder} (hb : b.Sound) (r : Run) : (b.call r).Sound := by
  obtain ⟨trees, path⟩ := b
  refine ⟨rfl, ?_⟩
  cases path with
  | nil =>
    obtain rfl : trees = [] := hb
    exact ⟨.nil, List.forall_mem_nil _⟩
  | cons f fs =>
    obtain ⟨hcalls, hadmits⟩ := hb
    show Admits (closeWhile _ trees [] (f :: fs)).trees r.level
      (closeWhile _ trees [] (f :: fs)).path
    rw [closeWhile, hcalls]
    split
    · next hends =>
      exact admits_closeWhile (.singleton .nil (List.forall_mem_nil _)) hadmits
        (of_decide_eq_true hends)
    · next hstays =>
      rw [decide_eq_true_eq, Nat.not_le] at hstays
      exact ⟨⟨.nil, List.forall_mem_nil _⟩, hstays, hadmits⟩

/-- A result changes no level. -/
theorem sound_settle {b : Builder} (hb : b.Sound) (o : Outcome) : (b.settle o).Sound := by
  unfold settle
  split
  · exact hb
  · next f fs hpath =>
    rw [Sound, hpath] at hb
    exact hb

theorem sound_foldl_step (ts : List Token) {b : Builder} (hb : b.Sound) :
    (ts.foldl step b).Sound := by
  induction ts generalizing b with
  | nil => exact hb
  | cons t ts ih =>
    refine ih ?_
    rw [step]
    split
    · exact sound_call hb _
    · exact sound_settle hb _

theorem levelOrdered_forest {b : Builder} (hb : b.Sound) : LevelOrdered b.forest := by
  obtain ⟨trees, path⟩ := b
  cases path with
  | nil =>
    obtain rfl : trees = [] := hb
    exact .nil
  | cons f fs =>
    obtain ⟨hcalls, hadmits⟩ := hb
    rw [forest, closeWhile, if_pos rfl, hcalls]
    exact levelOrdered_closeWhile_true (.singleton .nil (List.forall_mem_nil _)) hadmits

end Builder

/-- Every forest that is built is ordered by levels. -/
theorem levelOrdered_forest (ts : List Token) : LevelOrdered (forest ts) :=
  Builder.levelOrdered_forest (Builder.sound_foldl_step ts rfl)

/-! ## Callers -/

mutual

/-- The callers of the commands of a tree that stands at a place of the forest: `above` for the
root, and places for the others. -/
def Node.callers (above : Option Nat) (place : Nat) : Node → List (Option Nat)
  | .mk _ calls => above :: callersAll (some place) (place + 1) calls

/-- The callers of the commands of trees that stand behind one another, from a place on. -/
def callersAll (above : Option Nat) (place : Nat) : List Node → List (Option Nat)
  | [] => []
  | n :: ns => n.callers above place ++ callersAll above (place + n.flatten.length) ns

end

/-- The place of the caller of each command of a forest, and nothing for the roots. Places are
counted from zero, in the order of the commands. -/
def callers (ns : List Node) : List (Option Nat) := callersAll none 0 ns

/-- The place of the latest of several levels that is lower than the given one, or nothing if none
is. -/
def LatestLower (ls : List Nat) (level : Nat) : Option Nat → Prop
  | none => ∀ l ∈ ls, level ≤ l
  | some place => ∃ us l vs, ls = us ++ l :: vs ∧ us.length = place ∧ l < level ∧ ∀ m ∈ vs, level ≤ m

namespace LatestLower

variable {ls ms : List Nat} {level : Nat} {place : Option Nat}

/-- Levels that are not lower are passed over. -/
theorem append (h : LatestLower ls level place) (hms : ∀ m ∈ ms, level ≤ m) :
    LatestLower (ls ++ ms) level place := by
  cases place with
  | none => exact List.forall_mem_append.2 ⟨h, hms⟩
  | some place =>
    obtain ⟨us, l, vs, rfl, hplace, hlt, hvs⟩ := h
    exact ⟨us, l, vs ++ ms, by simp, hplace, hlt, List.forall_mem_append.2 ⟨hvs, hms⟩⟩

/-- A later place would not be passed over. -/
theorem place_le {p q : Nat} (hp : LatestLower ls level (some p))
    (hq : LatestLower ls level (some q)) : q ≤ p := by
  obtain ⟨us, l, vs, rfl, rfl, -, hvs⟩ := hp
  obtain ⟨us', l', vs', hsplit, rfl, hlt', -⟩ := hq
  rcases List.append_eq_append_iff.1 hsplit with ⟨ws, rfl, hws⟩ | ⟨ws, rfl, -⟩
  · cases ws with
    | nil => simp
    | cons w ws =>
      obtain ⟨rfl, rfl⟩ := List.cons.inj hws
      have := hvs l' (by simp)
      omega
  · simp

/-- There is one latest place. -/
theorem unique {place' : Option Nat} (h : LatestLower ls level place)
    (h' : LatestLower ls level place') : place = place' := by
  have habsurd {p : Nat} (hnone : LatestLower ls level none) : ¬ LatestLower ls level (some p) := by
    rintro ⟨us, l, vs, rfl, -, hlt, -⟩
    have := hnone l (by simp)
    omega
  cases place with
  | none =>
    cases place' with
    | none => rfl
    | some q => exact absurd h' (habsurd h)
  | some p =>
    cases place' with
    | none => exact absurd h (habsurd h')
    | some q => rw [Nat.le_antisymm (h'.place_le h) (h.place_le h')]

theorem concat {l : Nat} (hlt : l < level) : LatestLower (ls ++ [l]) level (some ls.length) :=
  ⟨ls, l, [], rfl, rfl, hlt, List.forall_mem_nil _⟩

end LatestLower

/-- Commands behind those of the levels `ls`, each with its caller. -/
inductive Called : (ls : List Nat) → List Run → List (Option Nat) → Prop
  /-- No command is left. -/
  | nil {ls : List Nat} : Called ls [] []
  /-- The caller of the next command stands among those before it. -/
  | cons {ls : List Nat} {r : Run} {rs : List Run} {c : Option Nat} {cs : List (Option Nat)}
      (caller : LatestLower ls r.level c) (rest : Called (ls ++ [r.level]) rs cs) :
      Called ls (r :: rs) (c :: cs)

namespace Called

variable {ls : List Nat} {rs rs' : List Run} {cs cs' : List (Option Nat)}

theorem append (h : Called ls rs cs) (h' : Called (ls ++ rs.map Run.level) rs' cs') :
    Called ls (rs ++ rs') (cs ++ cs') := by
  induction h with
  | nil => rwa [List.map_nil, List.append_nil] at h'
  | cons caller _ ih =>
    rw [List.map_cons, List.append_cons] at h'
    exact .cons caller (ih h')

/-- The caller of a command among the others. -/
theorem getElem? (h : Called ls rs cs) {us vs : List Run} {r : Run} (hrs : rs = us ++ r :: vs) :
    ∃ c, cs[us.length]? = some c ∧ LatestLower (ls ++ us.map Run.level) r.level c := by
  induction h generalizing us with
  | nil => simp at hrs
  | @cons ls r' rs c cs caller _ ih =>
    cases us with
    | nil =>
      obtain ⟨rfl, rfl⟩ := List.cons.inj hrs
      exact ⟨c, rfl, by rwa [List.map_nil, List.append_nil]⟩
    | cons u us =>
      obtain ⟨rfl, rfl⟩ := List.cons.inj hrs
      obtain ⟨c, hc, hlower⟩ := ih rfl
      exact ⟨c, hc, by rwa [List.map_cons, List.append_cons]⟩

end Called

theorem LevelOrdered.le_of_mem_flattenAll {ns : List Node} (h : LevelOrdered ns) {level : Nat}
    (hns : ∀ n ∈ ns, level ≤ n.level) : ∀ r ∈ flattenAll ns, level ≤ r.level := by
  induction h with
  | nil => exact List.forall_mem_nil _
  | @cons r calls ns _ lt _ _ ihbelow ihbeside =>
    have hr : level ≤ r.level := hns (.mk r calls) List.mem_cons_self
    rw [flattenAll, Node.flatten, List.forall_mem_append, List.forall_mem_cons]
    exact ⟨⟨hr, ihbelow fun n hn => Nat.le_trans hr (Nat.le_of_lt (lt n hn))⟩,
      ihbeside fun n hn => hns n (List.mem_cons_of_mem _ hn)⟩

/-- **Callers in an ordered forest.** Behind commands among which the roots have their caller, each
command of the forest has the latest one before it of a lower level as its caller. -/
theorem LevelOrdered.called {ns : List Node} (h : LevelOrdered ns) {ls : List Nat}
    {above : Option Nat} (habove : ∀ n ∈ ns, LatestLower ls n.level above) :
    Called ls (flattenAll ns) (callersAll above ls.length ns) := by
  induction h generalizing ls above with
  | nil => exact .nil
  | @cons r calls ns below lt _ le ihbelow ihbeside =>
    rw [flattenAll, Node.flatten, callersAll, Node.callers]
    refine .append (.cons (habove (.mk r calls) List.mem_cons_self) ?_) ?_
    · -- the calls have the root as their caller, since it stands right before them
      have hcalls := @ihbelow (ls ++ [r.level]) _ fun n hn => LatestLower.concat (lt n hn)
      rwa [List.length_append, List.length_singleton] at hcalls
    · -- the commands of the first tree have no lower level than the roots behind it
      have hroots := @ihbeside (ls ++ (r :: flattenAll calls).map Run.level) _ fun n hn =>
        (habove n (List.mem_cons_of_mem _ hn)).append <| by
          rw [List.forall_mem_map, List.forall_mem_cons]
          exact ⟨le n hn, below.le_of_mem_flattenAll fun m hm =>
            Nat.le_trans (le n hn) (Nat.le_of_lt (lt m hm))⟩
      rwa [List.length_append, List.length_map] at hroots

/-! ## Results -/

/-- A command without its outcome. -/
def Run.bare (r : Run) : Run := { r with outcome := none }

mutual

/-- A tree without the outcomes of its commands. -/
def Node.bare : Node → Node
  | .mk r calls => .mk r.bare (bareAll calls)

/-- A forest without the outcomes of its commands. -/
def bareAll : List Node → List Node
  | [] => []
  | n :: ns => n.bare :: bareAll ns

end

theorem bareAll_eq_map (ns : List Node) : bareAll ns = ns.map Node.bare := by
  induction ns with
  | nil => rfl
  | cons n ns ih => rw [bareAll, ih, List.map_cons]

theorem bareAll_append (ms ns : List Node) : bareAll (ms ++ ns) = bareAll ms ++ bareAll ns := by
  simp [bareAll_eq_map]

theorem bareAll_reverse (ns : List Node) : bareAll ns.reverse = (bareAll ns).reverse := by
  simp [bareAll_eq_map]

/-- The tokens of commands. -/
def commands (ts : List Token) : List Token := ts.filter (·.event = .command)

theorem commands_cons {t : Token} (ht : t.event = .command) (ts : List Token) :
    commands (t :: ts) = t :: commands ts := by
  rw [commands, List.filter_cons, if_pos (decide_eq_true ht), ← commands]

theorem commands_append (us vs : List Token) : commands (us ++ vs) = commands us ++ commands vs :=
  List.filter_append us vs

/-- The command that a token tells of. -/
def Token.run (t : Token) : Run := ⟨t.timestamp, t.text, t.level, none⟩

namespace Builder

/-- The forest under construction without the outcomes of its commands. -/
def bare (b : Builder) : Builder :=
  ⟨bareAll b.trees, b.path.map fun f => ⟨f.run.bare, bareAll f.calls⟩⟩

/-- When commands end is a matter of their levels. -/
theorem bare_closeWhile {p : Run → Bool} (hp : ∀ r, p r.bare = p r) (trees calls : List Node)
    (path : List Frame) :
    (closeWhile p trees calls path).bare =
      closeWhile p (bareAll trees) (bareAll calls) (bare ⟨trees, path⟩).path := by
  induction path generalizing calls with
  | nil => simp [closeWhile, bare, bareAll_append]
  | cons f fs ih =>
    rw [closeWhile]
    split
    · next hends =>
      rw [ih]
      simp [closeWhile, bare, bareAll, Node.bare, bareAll_append, bareAll_reverse, hp, hends]
    · next hstays => simp [closeWhile, bare, bareAll_append, hp, hstays]

theorem bare_call (b : Builder) (r : Run) : (b.call r).bare = b.bare.call r.bare := by
  have hclose := bare_closeWhile (p := fun above => r.level ≤ above.level) (fun _ => rfl) b.trees []
    b.path
  rw [call, call]
  show Builder.mk _ (_ :: _) = Builder.mk _ (_ :: _)
  rw [bare, Builder.mk.injEq] at hclose
  rw [hclose.1, hclose.2]
  rfl

theorem bare_settle (b : Builder) (o : Outcome) : (b.settle o).bare = b.bare := by
  obtain ⟨trees, path⟩ := b
  cases path <;> rfl

/-- A run of the builder over tokens is one over those of commands, up to outcomes. -/
theorem bare_foldl_step (ts : List Token) (b : Builder) :
    (ts.foldl step b).bare = (commands ts).foldl step b.bare := by
  induction ts generalizing b with
  | nil => rfl
  | cons t ts ih =>
    rw [List.foldl_cons, ih]
    cases ht : t.event with
    | command =>
      rw [commands_cons ht, List.foldl_cons, step, step, ht, bare_call]
      rfl
    | result code =>
      have hcommands : commands (t :: ts) = commands ts :=
        List.filter_cons_of_neg (by simp [ht])
      rw [hcommands, step, ht, bare_settle]

end Builder

/-- The results in a list of tokens change nothing but the outcomes of commands. -/
theorem bareAll_forest (ts : List Token) : bareAll (forest ts) = forest (commands ts) := by
  have hrun := Builder.bare_foldl_step ts {}
  have hclose (b : Builder) : bareAll b.forest = b.bare.forest := by
    have h := Builder.bare_closeWhile (p := fun _ => true) (fun _ => rfl) b.trees [] b.path
    rw [Builder.forest, bareAll_reverse]
    exact congrArg (fun b => b.trees.reverse) h
  rw [forest, hclose, hrun]
  rfl

/-! ## Tokens -/

/-- No command among the tokens is of a lower level. -/
def NoneLower (level : Nat) (ts : List Token) : Prop := ∀ t ∈ commands ts, level ≤ t.level

instance (level : Nat) (ts : List Token) : Decidable (NoneLower level ts) :=
  inferInstanceAs (Decidable (∀ t ∈ commands ts, level ≤ t.level))

/-- The commands of the flat list are those that the tokens tell of. -/
theorem map_bare_flatRuns (ts : List Token) :
    (flatRuns ts).map Run.bare = (commands ts).map Token.run := by
  induction ts with
  | nil => rfl
  | cons t ts ih =>
    rw [flatRuns_cons, List.map_append, ih, commands, commands, List.filter_cons]
    cases ht : t.event <;> simp [headRun?, ht, Run.bare, Token.run]

/-- The latest lower level among those of commands, in terms of tokens. -/
theorem latestLower_some_iff {ts : List Token} {level place : Nat} :
    LatestLower ((commands ts).map Token.level) level (some place) ↔
      ∃ us t vs, ts = us ++ t :: vs ∧ t.event = .command ∧ t.level < level ∧
        NoneLower level vs ∧ place = (commands us).length := by
  constructor
  · rintro ⟨ls, l, ms, hsplit, rfl, hlt, hms⟩
    obtain ⟨cs, ds, hcommands, rfl, hds⟩ := List.map_eq_append_iff.1 hsplit
    obtain ⟨t, es, rfl, rfl, rfl⟩ := List.map_eq_cons_iff.1 hds
    obtain ⟨us, ws, rfl, rfl, hws⟩ := List.filter_eq_append_iff.1 hcommands
    obtain ⟨skipped, vs, rfl, hskipped, ht, rfl⟩ := List.filter_eq_cons_iff.1 hws
    have hnone : commands skipped = [] := List.filter_eq_nil_iff.2 hskipped
    refine ⟨us ++ skipped, t, vs, by simp, of_decide_eq_true ht, hlt, List.forall_mem_map.1 hms, ?_⟩
    rw [List.length_map, commands_append, hnone, List.append_nil]
    rfl
  · rintro ⟨us, t, vs, rfl, ht, hlt, hvs, rfl⟩
    refine ⟨(commands us).map Token.level, t.level, (commands vs).map Token.level, ?_,
      List.length_map _, hlt, List.forall_mem_map.2 hvs⟩
    rw [commands_append, commands_cons ht, List.map_append, List.map_cons]

theorem latestLower_none_iff {ts : List Token} {level : Nat} :
    LatestLower ((commands ts).map Token.level) level none ↔ NoneLower level ts :=
  List.forall_mem_map

/-- **The caller of a command.** Each command token has its node in the forest, at the place of the
token among those of commands. The node is a root exactly if no command before it is of a lower
level, and otherwise its caller is the latest one before it of a lower level. So levels rise on every
way down and never rise among the roots or the calls of one command, and only the commands among the
tokens decide on the shape of the forest. -/
theorem callers_of_forest (ts : List Token) :
    (∀ before t after, ts = before ++ t :: after → t.event = .command →
      ((flattenAll (forest ts))[(commands before).length]?).map Run.bare = some t.run ∧
        ∃ caller, (callers (forest ts))[(commands before).length]? = some caller ∧
          (caller = none ↔ NoneLower t.level before) ∧
            ∀ place, caller = some place ↔ ∃ us c vs, before = us ++ c :: vs ∧ c.event = .command ∧
              c.level < t.level ∧ NoneLower t.level vs ∧ place = (commands us).length) ∧
      (∀ path, Descends (forest ts) path → (path.map Node.level).Pairwise (· < ·)) ∧
        (∀ ns, Siblings (forest ts) ns → (ns.map Node.level).Pairwise (· ≥ ·)) ∧
          ∀ us, commands us = commands ts → bareAll (forest us) = bareAll (forest ts) := by
  have hordered := levelOrdered_forest ts
  refine ⟨fun before t after hts ht => ?_, fun path hpath => hordered.pairwise_lt hpath,
    fun ns hns => (hordered.siblings hns).pairwise_le,
    fun us hus => by rw [bareAll_forest, bareAll_forest, hus]⟩
  obtain ⟨rs, r, rs', hruns, hrs, hr⟩ : ∃ rs r rs', flattenAll (forest ts) = rs ++ r :: rs' ∧
      rs.map Run.bare = (commands before).map Token.run ∧ r.bare = t.run := by
    have h := map_bare_flatRuns ts
    rw [← flattenAll_forest, hts, commands_append, commands_cons ht, List.map_append,
      List.map_cons] at h
    obtain ⟨rs, rest, hrs, hbefore, hrest⟩ := List.map_eq_append_iff.1 h
    obtain ⟨r, rs', rfl, hr, -⟩ := List.map_eq_cons_iff.1 hrest
    exact ⟨rs, r, rs', by rw [hts, hrs], hbefore, hr⟩
  have hlength : rs.length = (commands before).length := by
    simpa using congrArg List.length hrs
  have hlevels : rs.map Run.level = (commands before).map Token.level := by
    have h := congrArg (List.map Run.level) hrs
    rwa [List.map_map, List.map_map] at h
  have hlevel : r.level = t.level := congrArg Run.level hr
  have hcalled := @LevelOrdered.called _ hordered [] none fun _ _ _ hl => nomatch hl
  obtain ⟨caller, hcaller, hlower⟩ := hcalled.getElem? hruns
  rw [List.nil_append, hlevels, hlevel] at hlower
  rw [← hlength, hruns]
  refine ⟨?_, caller, hcaller, ?_, fun place => ?_⟩
  · rw [List.getElem?_append_right (Nat.le_refl _), Nat.sub_self]
    exact congrArg some hr
  · rw [← latestLower_none_iff]
    exact ⟨fun h => h ▸ hlower, hlower.unique⟩
  · rw [← latestLower_some_iff]
    exact ⟨fun h => h ▸ hlower, hlower.unique⟩

/-- A command calls another one two levels down, which has a result, and then one at a level that was
not there before. -/
def leap : List Token :=
  [⟨.command, 0, "10:00", "Call a.mkd", 1⟩, ⟨.command, 2, "10:01", "Get A", 2⟩,
    ⟨.result 200, 2, "10:02", "OK", 3⟩, ⟨.command, 1, "10:03", "Get B", 4⟩]

theorem callers_of_leap : (callers (forest leap))[2]? = some (some 0) := by
  obtain ⟨-, caller, hcaller, -, hplace⟩ :=
    (callers_of_forest leap).1 (leap.take 3) ⟨.command, 1, "10:03", "Get B", 4⟩ [] rfl rfl
  have hzero : caller = some 0 := (hplace 0).2
    ⟨[], ⟨.command, 0, "10:00", "Call a.mkd", 1⟩, leap.tail.take 2, rfl, rfl, by decide, by decide,
      rfl⟩
  rw [← hzero]
  exact hcaller

end ScriptAudit.Trace
