import Mathlib.Algebra.Group.Nat.Defs
import ScriptAudit.Proofs.Number.Decimal
import ScriptAudit.Proofs.Text.Search
import ScriptAudit.Yaml.Value.Scalar

/-!
# Hexadecimal numerals

A hexadecimal numeral is an integer whatever its length is (`Value.ofScalar_hexadecimal`). The
limit on the digits of a decimal numeral does not hold for it.
-/

namespace ScriptAudit.Yaml

/-- The greatest hexadecimal numeral of some digits. -/
def hexadecimal (digits : Nat) : Text := '0' :: 'x' :: List.replicate digits 'f'

theorem isAlphanum_of_mem_hexadecimal (k : Nat) :
    ∀ c ∈ hexadecimal k, c.isAlphanum = true := by
  intro c hc
  simp only [hexadecimal, List.mem_cons, List.mem_replicate] at hc
  obtain rfl | rfl | ⟨-, rfl⟩ := hc <;> rfl

/-! ## The form -/

namespace Tag

/-- A text is not among names that begin otherwise. -/
theorem elem_ofList_eq_false {names : List String} {c : Char} {t : Text}
    (h : ∀ s ∈ names, s.toList.head? ≠ some c) : names.elem (String.ofList (c :: t)) = false := by
  rw [List.elem_eq_mem, decide_eq_false_iff_not]
  intro hmem
  exact h _ hmem (by rw [String.toList_ofList, List.head?_cons])

variable (k : Nat)

theorem isFloat_hexadecimal : isFloat (hexadecimal k) = false := by
  have hcut : Text.cut? ['.'] (hexadecimal k) = none := by
    refine Text.cut?_eq_none ?_
    rw [Bool.eq_false_iff]
    intro hinfix
    have hmem := (Text.contains_iff_infix.1 hinfix).subset List.mem_cons_self
    exact ne_of_isAlphanum (isAlphanum_of_mem_hexadecimal k _ hmem) (by decide) rfl
  have hinf : [".inf", ".Inf", ".INF"].elem (String.ofList (hexadecimal k)) = false :=
    elem_ofList_eq_false (by decide)
  have hnan : [".nan", ".NaN", ".NAN"].elem (String.ofList (hexadecimal k)) = false :=
    elem_ofList_eq_false (by decide)
  have hunsigned : unsigned (hexadecimal k) = hexadecimal k := rfl
  rw [isFloat, hunsigned, hcut, hinf, hnan]
  · rfl
  · exact nofun

theorem isInt_hexadecimal : isInt (hexadecimal (k + 1)) = true := by
  have hall : ∀ c ∈ List.replicate (k + 1) 'f',
      (c.isDigit || (decide ('a' ≤ c) && decide (c ≤ 'f')) ||
        (decide ('A' ≤ c) && decide (c ≤ 'F')) || c == '_') = true := by
    intro c hc
    obtain rfl := List.eq_of_mem_replicate hc
    decide
  exact List.all_eq_true.2 hall

theorem ofPlain_hexadecimal : ofPlain (hexadecimal (k + 1)) = .int := by
  have hbool : isBool (hexadecimal (k + 1)) = false := elem_ofList_eq_false (by decide)
  have hlast : ((hexadecimal (k + 1)).getLast? == some '\n') = false := by
    rw [beq_eq_false_iff_ne]
    intro hlast
    have hmem := List.mem_of_getLast? hlast
    exact ne_of_isAlphanum (isAlphanum_of_mem_hexadecimal _ _ hmem) (by decide) rfl
  rw [ofPlain, hlast, Bool.and_false, if_neg Bool.false_ne_true]
  simp only [hbool, isFloat_hexadecimal, isInt_hexadecimal, if_true, if_neg Bool.false_ne_true]

end Tag

/-! ## The value -/

namespace Value

/-- A number whose digits have the highest value. -/
theorem foldl_replicate (k n : Nat) :
    (List.replicate k 15).foldl (fun n d => 16 * n + d) n = 16 ^ k * (n + 1) - 1 := by
  induction k generalizing n with
  | zero => simp
  | succ k ih =>
    rw [List.replicate_succ, List.foldl_cons, ih, Nat.pow_succ, Nat.mul_assoc]
    congr 2

theorem inBase?_replicate (k : Nat) : Numeral.inBase? 16 (List.replicate (k + 1) 'f') =
    some ((16 ^ (k + 1) - 1 : Nat) : Int) := by
  have htrim : Text.trimOf Numeral.isMargin (List.replicate (k + 1) 'f') =
      List.replicate (k + 1) 'f' := by
    refine Numeral.trimOf_eq_self fun c hc => ?_
    obtain rfl := List.eq_of_mem_replicate hc
    decide
  let digit? (c : Char) : Option Nat :=
    (Numeral.digitValue? c).bind fun d => if d < 16 then some d else none
  have hdigits (n : Nat) : (List.replicate n 'f').mapM digit? = some (List.replicate n 15) := by
    induction n with
    | zero => rfl
    | succ n ih =>
      rw [List.replicate_succ, List.mapM_cons, ih]
      rfl
  have hvalue := foldl_replicate (k + 1) 0
  rw [Nat.zero_add, Nat.mul_one] at hvalue
  have hsign : Numeral.sign (List.replicate (k + 1) 'f') = (false, List.replicate (k + 1) 'f') :=
    rfl
  rw [Numeral.inBase?, htrim, hsign]
  dsimp only
  -- no mark comes first, so that all characters are digits
  generalize hds : (List.mapM _ _ : Option (List Nat)) = ds?
  obtain rfl : ds? = some (List.replicate (k + 1) 15) := hds.symm.trans (hdigits (k + 1))
  exact congrArg (fun n : Nat => some (n : Int)) hvalue

theorem intOf_hexadecimal (k : Nat) :
    intOf (hexadecimal (k + 1)) = .ok ((16 ^ (k + 1) - 1 : Nat) : Int) := by
  have hungrouped : ungrouped (hexadecimal (k + 1)) = hexadecimal (k + 1) := by
    refine List.filter_eq_self.2 fun c hc => ?_
    rw [bne_iff_ne]
    exact ne_of_isAlphanum (isAlphanum_of_mem_hexadecimal _ _ hc) (by decide)
  have hsigned : signed (hexadecimal (k + 1)) = .ok (false, hexadecimal (k + 1)) := rfl
  rw [intOf, hungrouped, hsigned]
  show (inBase 16 (List.replicate (k + 1) 'f') >>= _) = _
  rw [inBase, inBase?_replicate]
  rfl

/-- A plain scalar that is a hexadecimal numeral is a number. -/
theorem ofScalar_hexadecimal (k : Nat) :
    ofScalar (Tag.ofPlain (hexadecimal (k + 1))) (hexadecimal (k + 1)) =
      .ok (.num (.int ((16 ^ (k + 1) - 1 : Nat) : Int))) := by
  rw [Tag.ofPlain_hexadecimal, ofScalar, intOf_hexadecimal]
  rfl

end Value

end ScriptAudit.Yaml
