import Mathlib
import ScriptAudit.Number.Basic
import ScriptAudit.Proofs.Number.Range

/-!
# Floating-point numbers and their bits

Taking a floating-point number apart gives what it was made of, as long as its mantissa has full
length (`decode_withSign`). A whole number of at most 53 binary digits is stored as it is, and a
longer one stays beyond them, so that rounding does not change which small whole numbers lie below it
(`less_ofRatio`, `less_ofDecimal`).
-/

namespace ScriptAudit.Binary64

open Float.Model (Format)
open Float.Model.UnpackedFloat

/-! ## Bits -/

section

variable (b : BitVec Format.binary64.numBits)

theorem toNat_unpackExponent : (unpackExponent b).toNat = b.toNat / 2 ^ 52 % 2 ^ 11 := by
  change b.toNat >>> 52 % 2 ^ 11 = _
  rw [Nat.shiftRight_eq_div_pow]

/-- The bits of a number that is not beyond the last exponent stay as they are. -/
theorem pack_unpack_of_lt (hlast : b.toNat / 2 ^ 52 % 2 ^ 11 < 2047) :
    pack .binary64 (unpack .binary64 b) = b := by
  have hnumber : ¬ isNaNBits b = true := by
    intro h
    have hexponent : unpackExponent b = -1#_ := (of_decide_eq_true h).1
    rw [← toNat_unpackExponent, hexponent] at hlast
    exact absurd hlast (by decide)
  rw [pack_unpack b, if_neg hnumber]

end

theorem toBits_ofBits {a : UInt64} (hlast : a.toNat / 2 ^ 52 % 2 ^ 11 < 2047) :
    (Float.ofBits a).toBits = a :=
  congrArg UInt64.ofBitVec (pack_unpack_of_lt a.toBitVec hlast)

/-- A number of full length is taken apart into what it was made of. -/
theorem decode_withSign {e f : Nat} (he : 1 ≤ e ∧ e ≤ 2046) (hf : f < 2 ^ 52) :
    decode (withSign false (e * twoTo 52 + f)) = .finite false (2 ^ 52 + f) ((e : Int) - 1075) := by
  have htwo (k : Nat) : twoTo k = 2 ^ k := rfl
  have hnat : (UInt64.ofNat (e * 2 ^ 52 + f)).toNat = e * 2 ^ 52 + f := by
    rw [UInt64.toNat_ofNat']
    omega
  have hexponent : (e * 2 ^ 52 + f) / 2 ^ 52 % 2 ^ 11 = e := by omega
  have hrest : (e * 2 ^ 52 + f) % 2 ^ 52 = f := by omega
  have hsign : ((e * 2 ^ 52 + f) / 2 ^ 63 == 1) = false := by
    rw [beq_eq_false_iff_ne]
    omega
  have hbits : (withSign false (e * twoTo 52 + f)).toBits = UInt64.ofNat (e * 2 ^ 52 + f) := by
    rw [withSign, if_neg Bool.false_ne_true, htwo]
    exact toBits_ofBits (by rw [hnat, hexponent]; omega)
  rw [decode, hbits, hnat]
  simp only [htwo, hexponent, hrest, hsign]
  rw [if_neg (by omega), if_neg (by omega)]

/-! ## Whole numbers -/

theorem leadingExponent_one {n : Nat} (hn : 0 < n) : leadingExponent n 1 = n.log2 := by
  have hone : Nat.log2 1 = 0 := rfl
  have hle : (scaled n 1 n.log2).2 ≤ (scaled n 1 n.log2).1 := by
    rw [scaled, if_pos (Int.natCast_nonneg _), Int.toNat_natCast, Nat.one_mul]
    exact Nat.log2_self_le hn.ne'
  rw [leadingExponent]
  simp only [hone, Int.natCast_zero, Int.sub_zero]
  rw [if_pos hle]

theorem lastExponent_one {n : Nat} (hn : 0 < n) : lastExponent n 1 = (n.log2 : Int) - 52 := by
  rw [lastExponent, leadingExponent_one hn]
  omega

theorem scaled_of_nonpos (n d : Nat) {q : Int} (hq : q ≤ 0) :
    scaled n d q = (n * twoTo (-q).toNat, d) := by
  rw [scaled]
  split
  · next hnonneg =>
    obtain rfl : q = 0 := by omega
    simp [twoTo]
  · rfl

theorem roundDiv_one (n : Nat) : roundDiv n 1 = n := by
  simp [roundDiv, Nat.mod_one]

/-- A whole number of at most 53 binary digits is not rounded. -/
theorem rounded_of_lt {n : Nat} (hn : 0 < n) (hlt : n < 2 ^ 53) :
    rounded n 1 = (n * 2 ^ (52 - n.log2), (n.log2 : Int) - 52) ∧
      2 ^ 52 ≤ n * 2 ^ (52 - n.log2) ∧ n * 2 ^ (52 - n.log2) < 2 ^ 53 := by
  have htwo (k : Nat) : twoTo k = 2 ^ k := rfl
  have hlog : n.log2 < 53 := (Nat.log2_lt hn.ne').2 hlt
  have hlow : 2 ^ 52 ≤ n * 2 ^ (52 - n.log2) := by
    calc 2 ^ 52 = 2 ^ n.log2 * 2 ^ (52 - n.log2) := by rw [← Nat.pow_add]; congr 1; omega
      _ ≤ n * 2 ^ (52 - n.log2) := Nat.mul_le_mul_right _ (Nat.log2_self_le hn.ne')
  have hhigh : n * 2 ^ (52 - n.log2) < 2 ^ 53 := by
    calc n * 2 ^ (52 - n.log2) < 2 ^ (n.log2 + 1) * 2 ^ (52 - n.log2) :=
          Nat.mul_lt_mul_of_pos_right Nat.lt_log2_self (by positivity)
      _ = 2 ^ 53 := by rw [← Nat.pow_add]; congr 1; omega
  have hexact : mantissa n 1 = n * 2 ^ (52 - n.log2) := by
    have hplaces : (-((n.log2 : Int) - 52)).toNat = 52 - n.log2 := by omega
    rw [mantissa, lastExponent_one hn, scaled_of_nonpos n 1 (by omega), roundDiv_one, htwo, hplaces]
  refine ⟨?_, hlow, hhigh⟩
  rw [rounded, hexact, htwo, if_neg hhigh.ne, lastExponent_one hn]

/-- Of a longer whole number 53 binary digits are left. -/
theorem rounded_of_le {n : Nat} (hle : 2 ^ 53 ≤ n) :
    0 < (rounded n 1).2 ∧ 2 ^ 52 ≤ (rounded n 1).1 ∧ (rounded n 1).1 < 2 ^ 53 := by
  have htwo (k : Nat) : twoTo k = 2 ^ k := rfl
  have hn : 0 < n := by omega
  have hlog : 53 ≤ n.log2 := (Nat.le_log2 hn.ne').2 hle
  have hscaled : scaled n 1 (lastExponent n 1) = (n, 2 ^ (n.log2 - 52)) := by
    rw [lastExponent_one hn, scaled, if_pos (by omega), htwo, Nat.one_mul]
    congr 2
    omega
  have hlow : 2 ^ 52 ≤ mantissa n 1 := by
    have hself := Nat.log2_self_le hn.ne'
    rw [mantissa, hscaled, le_roundDiv_iff (by positivity) (by decide), ← Nat.pow_add,
      show 52 + (n.log2 - 52) = n.log2 by omega]
    exact Nat.le_add_right_of_le (Nat.mul_le_mul_left 2 hself)
  have hhigh : mantissa n 1 ≤ 2 ^ 53 := by
    rw [mantissa, hscaled]
    refine roundDiv_le (by positivity) ?_
    rw [← Nat.pow_add, show 53 + (n.log2 - 52) = n.log2 + 1 by omega]
    exact Nat.lt_log2_self.le
  rw [rounded, lastExponent_one hn, htwo, htwo]
  split_ifs with hcarry <;> omega

/-- A number with a mantissa of full length is taken apart into its mantissa and exponent. -/
theorem decode_ofRatio {n d : Nat} (hn : n ≠ 0) (hlow : 2 ^ 52 ≤ (rounded n d).1)
    (hhigh : (rounded n d).1 < 2 ^ 53) (hlast : -1074 ≤ (rounded n d).2) :
    decode (ofRatio false n d) = if 971 < (rounded n d).2 then .infinite false
      else .finite false (rounded n d).1 (rounded n d).2 := by
  have htwo (k : Nat) : twoTo k = 2 ^ k := rfl
  rw [ofRatio, ofRatio?_eq false d hn, if_neg (by rw [htwo]; omega)]
  split_ifs with hrange
  · rfl
  · rw [Option.getD_some, decode_withSign (by omega) (by rw [htwo]; omega), htwo,
      Nat.add_sub_cancel' hlow, show (((rounded n d).2 + 1075).toNat : Int) - 1075 = (rounded n d).2
        by omega]

/-- A whole number compared with one that has been taken apart. -/
theorem less_of_decode {x : Float} {m k : Nat} {q : Int} (hx : decode x = .finite false m q) :
    (Number.int k).less (.float x) = decide (k * (ratio m q).2 < (ratio m q).1) := by
  rw [Number.less, Number.extent, Number.extent, hx]
  simp only [Number.Extent.below, Bool.false_eq_true, if_false, Nat.cast_one, Int.mul_one]
  norm_cast

/-- A small whole number lies below another one exactly if it lies below the number stored for it. -/
theorem less_ofRatio {k n : Nat} (hk : k < 2 ^ 53) (hn : 0 < n) :
    (Number.int k).less (.float (ofRatio false n 1)) = decide (k < n) := by
  have htwo (k : Nat) : twoTo k = 2 ^ k := rfl
  rcases Nat.lt_or_ge n (2 ^ 53) with hlt | hle
  · obtain ⟨hrounded, hlow, hhigh⟩ := rounded_of_lt hn hlt
    have hlog : n.log2 < 53 := (Nat.log2_lt hn.ne').2 hlt
    have hdecode := decode_ofRatio (d := 1) hn.ne' (by rwa [hrounded]) (by rwa [hrounded])
      (by rw [hrounded]; omega)
    rw [hrounded, if_neg (by omega)] at hdecode
    rw [less_of_decode hdecode, ratio]
    split
    · next hq =>
      have hplaces : ((n.log2 : Int) - 52).toNat = 0 ∧ 52 - n.log2 = 0 := by omega
      rw [hplaces.1, hplaces.2, htwo]
      simp
    · have hplaces : (-((n.log2 : Int) - 52)).toNat = 52 - n.log2 := by omega
      rw [hplaces, htwo]
      exact decide_eq_decide.2 (Nat.mul_lt_mul_right (by positivity))
  · obtain ⟨hpos, hlow, hhigh⟩ := rounded_of_le hle
    have hdecode := decode_ofRatio hn.ne' hlow hhigh (by omega)
    have hbelow : decide (k < n) = true := decide_eq_true (by omega)
    rw [hbelow]
    split_ifs at hdecode
    · rw [Number.less, Number.extent, Number.extent, hdecode]
      rfl
    · obtain ⟨q, hq⟩ : ∃ q : Nat, (rounded n 1).2 = (q + 1 : Nat) :=
        ⟨((rounded n 1).2 - 1).toNat, by omega⟩
      rw [less_of_decode hdecode, hq, ratio, if_pos (Int.natCast_nonneg _), Int.toNat_natCast, htwo,
        Nat.mul_one, decide_eq_true_iff]
      calc k < 2 ^ 53 := hk
        _ = 2 ^ 52 * 2 ^ 1 := rfl
        _ ≤ (rounded n 1).1 * 2 ^ (q + 1) :=
          Nat.mul_le_mul hlow (Nat.pow_le_pow_right two_pos (by omega))

theorem less_ofDecimal {k n : Nat} (hk : k < 2 ^ 53) :
    (Number.int k).less (.float (ofDecimal false n 0)) = decide (k < n) := by
  rw [ofDecimal]
  rcases Nat.eq_zero_or_pos n with rfl | hn
  · have hzero : decode (withSign false 0) = .finite false 0 (-1074) := rfl
    rw [if_pos rfl, less_of_decode hzero]
    simp [ratio]
  · rw [if_neg hn.ne']
    split_ifs with hlong hshort hnonneg
    · -- a number of so many digits exceeds the range
      have hlength : ¬ (Nat.toDigits 10 n).length ≤ 400 := by
        rw [decimalLength, if_neg hn.ne'] at hlong
        omega
      rw [Nat.length_toDigits_le_iff (by decide) (by decide)] at hlength
      have hbound : 2 ^ 53 ≤ 10 ^ 400 := by decide +kernel
      rw [Number.less, Number.extent, Number.extent, show decode (infinity false) = .infinite false
        from rfl]
      refine (decide_eq_true ?_).symm
      omega
    · omega
    · rw [show tenTo (0 : Int).toNat = 1 from rfl, Nat.mul_one]
      exact less_ofRatio hk hn
    · exact absurd le_rfl hnonneg

end ScriptAudit.Binary64
