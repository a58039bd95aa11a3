import ScriptAudit.Proofs.Fault
import ScriptAudit.Run.Session

/-!
# What is configured

The values of names, as they come from a file of assignments and from the environment.

* `Bindings.get?_put` — the values of names after one of them is given a value.
* `Configuration.get?_overlay` — the environment takes precedence, for the keys and only for them.
* `Session.path_of_configured` — the interpreter of the runner that is configured.
-/

namespace ScriptAudit

namespace Bindings

theorem get?_cons (name value n : Text) (bs : Bindings) :
    get? n ((name, value) :: bs) = if n = name then some value else bs.get? n := by
  rw [get?, List.lookup_cons, beq_eq_decide]
  split <;> simp_all [get?]

/-- A name has the value that it was given last; the other names keep theirs. -/
theorem get?_put (name value n : Text) (bs : Bindings) :
    (bs.put name value).get? n = if n = name then some value else bs.get? n := by
  induction bs with
  | nil => exact get?_cons name value n []
  | cons b bs ih =>
    obtain ⟨name', value'⟩ := b
    rw [put]
    split
    · next h =>
      obtain rfl := eq_of_beq h
      rw [get?_cons, get?_cons]
      split <;> rfl
    · next h =>
      rw [get?_cons, get?_cons, ih]
      by_cases hn : n = name
      · subst hn
        rw [if_pos rfl, if_pos rfl, if_neg fun heq => h (beq_iff_eq.2 heq.symm)]
      · rw [if_neg hn, if_neg hn]

end Bindings

namespace Configuration

variable (environment : Bindings)

/-- The values after one key has been looked for in the environment. -/
theorem get?_overlayKey (k : Key) (n : Text) (bs : Bindings) :
    Bindings.get? n (match environment.get? k.name with
      | some value => bs.put k.name value
      | none => bs) = if n = k.name then (environment.get? n).or (bs.get? n) else bs.get? n := by
  by_cases hn : n = k.name
  · subst hn
    rw [if_pos rfl]
    cases environment.get? k.name with
    | none => rfl
    | some value => exact (Bindings.get?_put ..).trans (if_pos rfl)
  · rw [if_neg hn]
    cases environment.get? k.name with
    | none => rfl
    | some value => exact (Bindings.get?_put ..).trans (if_neg hn)

theorem get?_foldl_overlayKey (keys : List Key) (n : Text) (bs : Bindings) :
    (keys.foldl (fun bs k =>
      match environment.get? k.name with
      | some value => bs.put k.name value
      | none => bs) bs).get? n =
      if n ∈ keys.map Key.name then (environment.get? n).or (bs.get? n) else bs.get? n := by
  induction keys generalizing bs with
  | nil => rfl
  | cons k keys ih =>
    rw [List.foldl_cons, ih, get?_overlayKey]
    by_cases hn : n = k.name
    · simp only [List.map_cons, List.mem_cons, hn, true_or, if_true]
      split
      · cases environment.get? k.name <;> rfl
      · rfl
    · simp only [List.map_cons, List.mem_cons, hn, false_or, if_false]

/-- **The environment takes precedence**, for the keys and only for them. -/
theorem get?_overlay (n : Text) (bs : Bindings) : (overlay environment bs).get? n =
    if n ∈ Key.all.map Key.name then (environment.get? n).or (bs.get? n) else bs.get? n :=
  get?_foldl_overlayKey environment Key.all n bs

theorem name_mem (k : Key) : k.name ∈ Key.all.map Key.name :=
  List.mem_map_of_mem (by cases k <;> simp [Key.all])

end Configuration

/-- The interpreter that the environment names is that of the runner that is configured. -/
theorem Session.path_of_configured {s : Session} {r : Runner} {path : Text}
    (hpath : s.environment.get? Configuration.Key.path.name = some path)
    (h : s.configured = .ok r) : r.path = path := by
  obtain ⟨bs, hload, hr⟩ := bind_eq_ok_iff.1 h
  obtain ⟨t, -, hbs⟩ := bind_eq_ok_iff.1 hload
  cases hr
  cases hbs
  change Option.getD (Bindings.get? _ _) _ = _
  rw [Configuration.get?_overlay, if_pos (Configuration.name_mem _), hpath]
  rfl

end ScriptAudit
