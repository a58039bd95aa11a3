import Mathlib.Algebra.Order.Field.Power
import Mathlib.Data.Nat.Log
import Mathlib.Tactic.FieldSimp
import Mathlib.Tactic.Linarith
import Mathlib.Tactic.NormNum
import Mathlib.Tactic.Positivity
import Mathlib.Tactic.Ring
import ScriptAudit.Number.Binary64

/-!
# The range of binary fractions

The greatest floating-point number is `(2 ^ 53 - 1) · 2 ^ 971`. A quotient has a nearest
floating-point number as long as it lies less than half a unit above this one; half a unit itself is
rounded to the even side, which lies out of range. `ofRatio?_eq_none_iff` says so.
-/

namespace ScriptAudit

/-! ## Rounded quotients -/

/-- A quotient is rounded to an even number or above it when it is at most half a unit below. -/
theorem le_roundDiv_iff {n d k : Nat} (hd : 0 < d) (hk : k % 2 = 0) :
    k ≤ roundDiv n d ↔ 2 * (k * d) ≤ 2 * n + d := by
  have hdiv := Nat.div_add_mod n d
  have hlt := Nat.mod_lt n hd
  constructor
  · intro h
    have hnear := (roundDiv_near n hd).2
    have := Nat.mul_le_mul_left d h
    rw [Nat.mul_comm k d]
    omega
  · intro h
    have hle : k ≤ n / d + 1 := by
      by_contra hgt
      have := Nat.mul_le_mul_right d (show n / d + 2 ≤ k by omega)
      rw [Nat.add_mul, Nat.mul_comm (n / d) d] at this
      omega
    simp only [roundDiv]
    -- only the next number above the quotient is in question, and it is the even one
    by_cases hnext : k = n / d + 1
    · rw [hnext, Nat.add_mul, Nat.mul_comm (n / d) d] at h
      split_ifs <;> omega
    · split_ifs <;> omega

theorem roundDiv_le {n d k : Nat} (hd : 0 < d) (h : n ≤ k * d) : roundDiv n d ≤ k := by
  have hnear := (roundDiv_near n hd).2
  by_contra hlt
  have := Nat.mul_le_mul_left d (Nat.succ_le_of_lt (Nat.lt_of_not_le hlt))
  rw [Nat.mul_succ, Nat.mul_comm d k] at this
  omega

namespace Binary64

theorem scaled_pos {d : Nat} (n : Nat) (hd : 0 < d) (q : Int) : 0 < (scaled n d q).2 := by
  rw [scaled]
  split
  · exact Nat.mul_pos hd (twoTo_pos _)
  · exact hd

/-- Scaling divides the quotient by a power of two. -/
theorem scaled_quotient (n d : Nat) (q : Int) :
    ((scaled n d q).1 : ℚ) / (scaled n d q).2 = n / d / 2 ^ q := by
  rw [scaled]
  split
  · next hq =>
    obtain ⟨k, rfl⟩ := Int.eq_ofNat_of_zero_le hq
    have htwo : (twoTo k : ℚ) = 2 ^ k := by simp [twoTo]
    simp only [Int.toNat_natCast, Nat.cast_mul, zpow_natCast, htwo]
    rw [div_div]
  · next hq =>
    obtain ⟨k, hk⟩ := Int.eq_ofNat_of_zero_le (show 0 ≤ -q by omega)
    obtain rfl : q = -k := by omega
    have htwo : (twoTo k : ℚ) = 2 ^ k := by simp [twoTo]
    simp only [neg_neg, Int.toNat_natCast, Nat.cast_mul, zpow_neg, zpow_natCast, htwo]
    field_simp

/-- The leading exponent bounds the quotient on both sides. -/
theorem leadingExponent_spec {n d : Nat} (hn : 0 < n) (hd : 0 < d) :
    (2 : ℚ) ^ leadingExponent n d ≤ n / d ∧ (n / d : ℚ) < 2 ^ (leadingExponent n d + 1) := by
  have hd' : (0 : ℚ) < d := by exact_mod_cast hd
  have hnlow : (2 : ℚ) ^ (n.log2 : ℤ) ≤ n := by
    rw [zpow_natCast]
    exact_mod_cast Nat.log2_self_le hn.ne'
  have hnhigh : (n : ℚ) < 2 ^ ((n.log2 : ℤ) + 1) := by
    have := Nat.lt_log2_self (n := n)
    exact_mod_cast this
  have hdlow : (2 : ℚ) ^ (d.log2 : ℤ) ≤ d := by
    rw [zpow_natCast]
    exact_mod_cast Nat.log2_self_le hd.ne'
  have hdhigh : (d : ℚ) < 2 ^ ((d.log2 : ℤ) + 1) := by
    have := Nat.lt_log2_self (n := d)
    exact_mod_cast this
  have hscaled := scaled_quotient n d (n.log2 - d.log2)
  have hpos := scaled_pos n hd (n.log2 - d.log2)
  have hpos' : (0 : ℚ) < (scaled n d (n.log2 - d.log2)).2 := by exact_mod_cast hpos
  have hiff : (scaled n d (n.log2 - d.log2)).2 ≤ (scaled n d (n.log2 - d.log2)).1 ↔
      (2 : ℚ) ^ ((n.log2 : ℤ) - d.log2) ≤ n / d := by
    rw [← one_le_div (by positivity : (0 : ℚ) < 2 ^ ((n.log2 : ℤ) - d.log2)), ← hscaled,
      one_le_div hpos']
    exact_mod_cast Iff.rfl
  have hlow : (2 : ℚ) ^ ((n.log2 : ℤ) - d.log2 - 1) ≤ n / d := by
    rw [le_div_iff₀ hd']
    calc (2 : ℚ) ^ ((n.log2 : ℤ) - d.log2 - 1) * d
        ≤ 2 ^ ((n.log2 : ℤ) - d.log2 - 1) * 2 ^ ((d.log2 : ℤ) + 1) := by gcongr
      _ = 2 ^ (n.log2 : ℤ) := by rw [← zpow_add₀ two_ne_zero]; congr 1; ring
      _ ≤ n := hnlow
  have hhigh : (n / d : ℚ) < 2 ^ ((n.log2 : ℤ) - d.log2 + 1) := by
    rw [div_lt_iff₀ hd']
    calc (n : ℚ) < 2 ^ ((n.log2 : ℤ) + 1) := hnhigh
      _ = 2 ^ ((n.log2 : ℤ) - d.log2 + 1) * 2 ^ (d.log2 : ℤ) := by
        rw [← zpow_add₀ two_ne_zero]; congr 1; ring
      _ ≤ 2 ^ ((n.log2 : ℤ) - d.log2 + 1) * d := by gcongr
  rw [show leadingExponent n d = if (scaled n d (n.log2 - d.log2)).2 ≤
    (scaled n d (n.log2 - d.log2)).1 then (n.log2 : ℤ) - d.log2 else n.log2 - d.log2 - 1 from rfl]
  split
  · next h => exact ⟨hiff.1 h, hhigh⟩
  · next h =>
    rw [hiff, not_le] at h
    exact ⟨hlow, by rwa [sub_add_cancel]⟩

/-- The least magnitude beyond the floating-point numbers, half a unit above the greatest one. -/
def limit : Nat := 2 ^ 1024 - 2 ^ 970

theorem two_mul_limit : 2 * limit = (2 ^ 54 - 1) * 2 ^ 971 := by decide +kernel

theorem limit_eq : (limit : ℚ) = (2 ^ 53 - 1 / 2) * 2 ^ (971 : ℤ) := by
  have h : ((2 * limit : Nat) : ℚ) = ((2 ^ 54 - 1) * 2 ^ 971 : Nat) :=
    congrArg Nat.cast two_mul_limit
  have hodd : ((2 ^ 54 - 1 : Nat) : ℚ) = 2 * (2 ^ 53 - 1 / 2) := by norm_num
  rw [Nat.cast_mul, Nat.cast_mul, hodd, Nat.cast_pow, Nat.cast_ofNat, mul_assoc] at h
  rw [zpow_ofNat]
  exact mul_left_cancel₀ two_ne_zero h

/-- The exponent of the last place of the floating-point numbers near a quotient. -/
def lastExponent (n d : Nat) : Int := max (leadingExponent n d - 52) (-1074)

/-- The quotient rounded to a whole number of units of the last place. -/
def mantissa (n d : Nat) : Nat :=
  roundDiv (scaled n d (lastExponent n d)).1 (scaled n d (lastExponent n d)).2

/-- The mantissa and the exponent of the last place, when a mantissa that is too long by one digit has
given the digit up. -/
def rounded (n d : Nat) : Nat × Int :=
  if mantissa n d = twoTo 53 then (twoTo 52, lastExponent n d + 1)
  else (mantissa n d, lastExponent n d)

theorem ofRatio?_eq (negative : Bool) {n : Nat} (d : Nat) (hn : n ≠ 0) : ofRatio? negative n d =
    if (rounded n d).1 < twoTo 52 then some (withSign negative (rounded n d).1)
    else if (rounded n d).2 > 971 then none
    else some (withSign negative
      (((rounded n d).2 + 1075).toNat * twoTo 52 + ((rounded n d).1 - twoTo 52))) := by
  rw [ofRatio?, if_neg hn]
  rfl

/-- A quotient is out of range by its last place, or when it is rounded up into the next one. -/
theorem ofRatio?_eq_none_cases {negative : Bool} {n d : Nat} (hn : n ≠ 0) :
    ofRatio? negative n d = none ↔
      (mantissa n d = 2 ^ 53 ∧ 971 < lastExponent n d + 1) ∨
        (mantissa n d ≠ 2 ^ 53 ∧ 2 ^ 52 ≤ mantissa n d ∧ 971 < lastExponent n d) := by
  have htwo (k : Nat) : twoTo k = 2 ^ k := rfl
  rw [ofRatio?_eq negative d hn]
  simp only [rounded, htwo]
  by_cases hm : mantissa n d = 2 ^ 53
  · simp [hm]
  · rw [if_neg hm]
    dsimp only
    split_ifs with hsubnormal hrange
    · exact iff_of_false nofun (by omega)
    · exact iff_of_true rfl (by omega)
    · exact iff_of_false nofun (by omega)

/-- Below the last power of two in range a quotient lies below the limit. -/
theorem lt_limit_of_leadingExponent_lt {n d : Nat} (hn : 0 < n) (hd : 0 < d)
    (he : leadingExponent n d < 1023) : (n / d : ℚ) < limit :=
  calc (n / d : ℚ) < 2 ^ (leadingExponent n d + 1) := (leadingExponent_spec hn hd).2
    _ ≤ 2 ^ (1023 : ℤ) := zpow_le_zpow_right₀ one_le_two (by omega)
    _ = 2 ^ (52 : ℤ) * 2 ^ (971 : ℤ) := zpow_add₀ two_ne_zero 52 971
    _ ≤ (2 ^ 53 - 1 / 2) * 2 ^ (971 : ℤ) := by gcongr; norm_num
    _ = limit := limit_eq.symm

/-- From the first power of two out of range on a quotient lies beyond the limit. -/
theorem limit_le_of_lt_leadingExponent {n d : Nat} (hn : 0 < n) (hd : 0 < d)
    (he : 1023 < leadingExponent n d) : (limit : ℚ) ≤ n / d :=
  calc (limit : ℚ) = (2 ^ 53 - 1 / 2) * 2 ^ (971 : ℤ) := limit_eq
    _ ≤ (2 : ℚ) ^ (53 : ℤ) * 2 ^ (971 : ℤ) := by gcongr; norm_num
    _ = 2 ^ (1024 : ℤ) := (zpow_add₀ two_ne_zero 53 971).symm
    _ ≤ 2 ^ leadingExponent n d := zpow_le_zpow_right₀ one_le_two (by omega)
    _ ≤ n / d := (leadingExponent_spec hn hd).1

/-- The mantissa compared with an even number, as the quotient is with half a unit below it. -/
theorem le_mantissa_iff {n d k : Nat} (hd : 0 < d) (hk : k % 2 = 0) :
    k ≤ mantissa n d ↔ (k - 1 / 2) * 2 ^ lastExponent n d ≤ (n / d : ℚ) := by
  have hpos := scaled_pos n hd (lastExponent n d)
  have hpos' : (0 : ℚ) < (scaled n d (lastExponent n d)).2 := by exact_mod_cast hpos
  rw [mantissa, le_roundDiv_iff hpos hk, ← le_div_iff₀ (by positivity), ← scaled_quotient,
    le_div_iff₀ hpos', ← Nat.cast_le (α := ℚ)]
  push_cast
  constructor <;> intro h <;> linarith

theorem mantissa_le {n d k : Nat} (hd : 0 < d) (h : (n / d : ℚ) ≤ k * 2 ^ lastExponent n d) :
    mantissa n d ≤ k := by
  have hpos := scaled_pos n hd (lastExponent n d)
  have hpos' : (0 : ℚ) < (scaled n d (lastExponent n d)).2 := by exact_mod_cast hpos
  refine roundDiv_le hpos ?_
  rw [← div_le_iff₀ (by positivity), ← scaled_quotient, div_le_iff₀ hpos'] at h
  exact_mod_cast h

/-- A quotient has no nearest floating-point number exactly from half a unit above the greatest one
on. -/
theorem ofRatio?_eq_none_iff (negative : Bool) (n : Nat) {d : Nat} (hd : 0 < d) :
    ofRatio? negative n d = none ↔ limit * d ≤ n := by
  have hd' : (0 : ℚ) < d := by exact_mod_cast hd
  have hlimit : limit * d ≤ n ↔ (limit : ℚ) ≤ n / d := by
    rw [le_div_iff₀ hd']
    exact_mod_cast Iff.rfl
  rw [hlimit]
  rcases Nat.eq_zero_or_pos n with rfl | hn
  · refine iff_of_false (by simp [ofRatio?]) (not_le.2 ?_)
    rw [limit_eq, Nat.cast_zero, zero_div]
    positivity
  obtain ⟨hlow, hhigh⟩ := leadingExponent_spec hn hd
  rw [ofRatio?_eq_none_cases hn.ne']
  rcases lt_trichotomy (leadingExponent n d) 1023 with he | he | he
  · -- the last place lies too low to leave the range by one step
    have hlast : lastExponent n d ≤ 970 := by
      rw [lastExponent]
      omega
    exact iff_of_false (by omega) (not_le.2 (lt_limit_of_leadingExponent_lt hn hd he))
  · -- the last place is that of the greatest numbers, and rounding decides
    have hlast : lastExponent n d = 971 := by
      rw [lastExponent, he]
      rfl
    have hmantissa : mantissa n d ≤ 2 ^ 53 := by
      refine mantissa_le hd ?_
      rw [he] at hhigh
      rw [hlast]
      exact_mod_cast hhigh.le.trans (zpow_add₀ two_ne_zero 53 971).le
    have hround : 2 ^ 53 ≤ mantissa n d ↔ (limit : ℚ) ≤ n / d := by
      rw [le_mantissa_iff hd (by decide), hlast, limit_eq]
      norm_cast
    rw [← hround, hlast]
    omega
  · have hlast : lastExponent n d = leadingExponent n d - 52 := by
      rw [lastExponent]
      omega
    have hmantissa : 2 ^ 52 ≤ mantissa n d := by
      refine (le_mantissa_iff hd (by decide)).2 (le_trans ?_ hlow)
      calc (((2 ^ 52 : Nat) : ℚ) - 1 / 2) * 2 ^ lastExponent n d
          ≤ 2 ^ (52 : ℤ) * 2 ^ lastExponent n d := by gcongr; norm_num
        _ = 2 ^ leadingExponent n d := by
          rw [← zpow_add₀ two_ne_zero, hlast]
          congr 1
          ring
    exact iff_of_true (by omega) (limit_le_of_lt_leadingExponent hn hd he)

end Binary64

end ScriptAudit
