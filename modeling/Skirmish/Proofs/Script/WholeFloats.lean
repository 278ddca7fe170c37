import Mathlib.Algebra.Group.Nat.Defs
import Skirmish.Script.Value

/-!
# Integers as floats

The float nearest to an integer is rounded where the integer has more than 53
binary digits, and packed into 64 bits, twice if the integer is negative.  None
of this makes 0 of an integer that is not 0: the float that comes of it has all
53 digits that a float can have, and its exponent is nowhere near the limits.
Such floats are called `Normal`, and this file shows that

* rounding an integer of at most 64 digits gives a normal float (`Normal.round`);
* a normal float is normal again after packing (`Normal.unpack_pack`).

Main statement: only the integer 0 is equal to 0 as a float
(`Value.nearestFloat_beq_zero`).
-/

namespace Skirmish.Script

open Float.Model (Format UnpackedFloat totalExponent)
open Float.Model.UnpackedFloat

/-! ## Digits -/

/-- A shift to the right drops the last digits. -/
theorem mantissa_shiftRight (m : ExtendedMantissa) (k : Nat) :
    (m >>> k).mantissa = m.mantissa / 2 ^ k := by
  change (k.repeat ExtendedMantissa.shiftRightOne m).mantissa = _
  induction k with
  | zero => simp [Nat.repeat]
  | succ k ih =>
    rw [Nat.repeat, ExtendedMantissa.shiftRightOne, ih, Nat.pow_succ, Nat.div_div_eq_div_mul]

theorem log2_shiftLeft {m : Nat} (hm : m ≠ 0) (k : Nat) : (m <<< k).log2 = m.log2 + k := by
  induction k with
  | zero => rfl
  | succ k ih =>
    have hne : m <<< k ≠ 0 := by
      rw [Nat.shiftLeft_eq]
      exact Nat.mul_ne_zero hm (Nat.ne_of_gt (Nat.two_pow_pos k))
    rw [Nat.shiftLeft_succ, Nat.log2_two_mul hne, ih, Nat.add_assoc]

/-- Without the digits after the first 53, a number has 53 digits. -/
theorem log2_div_two_pow {m : Nat} (hm : 52 ≤ m.log2) : (m / 2 ^ (m.log2 - 52)).log2 = 52 := by
  have hne : m ≠ 0 := by
    rintro rfl
    simp at hm
  have hlow : 2 ^ 52 ≤ m / 2 ^ (m.log2 - 52) := by
    have hsplit : 52 + (m.log2 - 52) = m.log2 := by omega
    rw [Nat.le_div_iff_mul_le (Nat.two_pow_pos _), ← Nat.pow_add, hsplit]
    exact Nat.log2_self_le hne
  have hhigh : m / 2 ^ (m.log2 - 52) < 2 ^ 53 := by
    have hsplit : 53 + (m.log2 - 52) = m.log2 + 1 := by omega
    rw [Nat.div_lt_iff_lt_mul (Nat.two_pow_pos _), ← Nat.pow_add, hsplit]
    exact Nat.lt_log2_self
  exact (Nat.log2_eq_iff (by omega)).2 ⟨hlow, hhigh⟩

theorem roundedMantissa_eq (m : ExtendedMantissa) :
    m.roundedMantissa = m.mantissa ∨ m.roundedMantissa = m.mantissa + 1 := by
  obtain ⟨m, _ | _, _ | _⟩ := m
  · exact .inl rfl
  · exact .inl rfl
  · -- half way between two numbers the even one is taken
    change m + m % 2 = m ∨ m + m % 2 = m + 1
    omega
  · exact .inr rfl

/-- Rounding adds a digit at most. -/
theorem log2_roundedMantissa {m : ExtendedMantissa} (hm : m.mantissa.log2 = 52) :
    52 ≤ m.roundedMantissa.log2 ∧ m.roundedMantissa.log2 ≤ 53 := by
  have hne : m.mantissa ≠ 0 := by
    intro hzero
    simp [hzero] at hm
  obtain ⟨hlow, hhigh⟩ := (Nat.log2_eq_iff hne).1 hm
  have hrounded := roundedMantissa_eq m
  refine ⟨(Nat.le_log2 (by omega)).2 (by omega), ?_⟩
  exact Nat.lt_succ_iff.1 ((Nat.log2_lt (by omega)).2 (by omega))

/-- The exponent that is aimed at leaves 53 digits, within the limits. -/
theorem targetExponent_eq (m : Nat) (e : Int) :
    Format.targetExponent .binary64 (totalExponent m e) = max (m.log2 + 1 + e - 53) (-1074) := rfl

/-- A shift to the exponent that is aimed at leaves 53 digits. -/
theorem shiftToTargetExponent_eq {m : Nat} {e : Int} (hm : 52 ≤ m.log2) (he : -1074 ≤ e) :
    ∃ shifted, shiftToTargetExponent .binary64 m e .exact =
      (shifted, e + (m.log2 - 52 : Nat)) ∧ shifted.mantissa.log2 = 52 := by
  have hamount : (Format.targetExponent .binary64 (totalExponent m e) - e).toNat = m.log2 - 52 := by
    rw [targetExponent_eq]
    omega
  refine ⟨_, by simp only [shiftToTargetExponent, shiftToExponent, hamount]; rfl, ?_⟩
  rw [mantissa_shiftRight]
  exact log2_div_two_pow hm

/-- A mantissa with its first digit put before the others. -/
theorem log2_toNat_one_append (f : BitVec 52) : (1#1 ++ f).toNat.log2 = 52 := by
  have hvalue : (1#1 ++ f).toNat = 2 ^ 52 + f.toNat := by
    rw [BitVec.toNat_append, ← Nat.shiftLeft_add_eq_or_of_lt f.isLt]
    rfl
  have hlt := f.isLt
  exact (Nat.log2_eq_iff (by omega)).2 ⟨by omega, by omega⟩

/-! ## Packing -/

/-- A number of 53 digits is packed with its exponent, which is moved up to count from 0. -/
theorem pack_finite {s : Sign} {m : Nat} {e : Int} {h : 0 < m} (digits : m.log2 = 52)
    (high : e ≤ 971) :
    UnpackedFloat.pack .binary64 (.finite s m e h) =
      packComponents .binary64 s (BitVec.ofNat 11 (e + 1023 + 52).toNat) (BitVec.ofNat 52 m) := by
  have hbelow : ¬2 ^ 11 ≤ (e + 1023 + 52).toNat + 1 := by omega
  exact (if_neg hbelow).trans (if_pos (congrArg (· + 1) digits))

/-- The greatest exponent and the least one have meanings of their own; with any other one
the mantissa is unpacked with its first digit. -/
theorem unpack_packComponents {s : Sign} {exponent : BitVec 11} {f : BitVec 52}
    (hgreatest : exponent ≠ -1#11) (hleast : exponent ≠ 0#11) :
    ∃ t h, UnpackedFloat.unpack .binary64 (packComponents .binary64 s exponent f) =
      .finite t (1#1 ++ f).toNat (exponent.toNat - 1075) h := by
  -- the mantissa is also in the proof that it is positive, where nothing can be rewritten
  generalize hb : packComponents .binary64 s exponent f = b
  have hexponent : unpackExponent b = exponent := hb ▸ unpackExponent_packComponents
  have hmantissa : unpackMantissa b = f := hb ▸ unpackMantissa_packComponents
  subst hexponent hmantissa
  exact ⟨_, _, (if_neg hgreatest).trans (if_neg hleast)⟩

/-! ## Normal floats -/

/-- The mantissa has all 53 digits, and the exponent is within the limits. -/
inductive Normal : UnpackedFloat → Prop where
  | finite {s : Sign} {m : Nat} {e : Int} {h : 0 < m} (digits : m.log2 = 52) (low : -1074 ≤ e)
    (high : e ≤ 971) : Normal (.finite s m e h)

namespace Normal

theorem neg {x : UnpackedFloat} (h : Normal x) : Normal x.neg := by
  cases h with
  | finite digits low high => exact .finite digits low high

/-- No normal float is 0. -/
theorem beq_zero {x : UnpackedFloat} (h : Normal x) (s : Sign) : x.beq (.zero s) = false := by
  cases h with
  | @finite t => cases t <;> rfl

theorem roundWithAccuracy {s : Sign} {m : Nat} {e : Int} (hm : 52 ≤ m.log2) (hlow : -1074 ≤ e)
    (hhigh : e + m.log2 ≤ 1022) :
    Normal (UnpackedFloat.roundWithAccuracy .binary64 s m e .exact) := by
  obtain ⟨shifted, hshifted, hdigits⟩ := shiftToTargetExponent_eq hm hlow
  obtain ⟨h52, h53⟩ := log2_roundedMantissa hdigits
  -- rounding may have led to a digit too many, so there is a second shift
  obtain ⟨final, hfinal, hdigits'⟩ :=
    shiftToTargetExponent_eq h52 (e := e + (m.log2 - 52 : Nat)) (by omega)
  have hpos : (shiftToTargetExponent .binary64 shifted.roundedMantissa
      (e + (m.log2 - 52 : Nat)) .exact).1.mantissa ≠ 0 := by
    intro hzero
    rw [hfinal] at hzero
    rw [hzero] at hdigits'
    cases hdigits'
  unfold UnpackedFloat.roundWithAccuracy
  rw [hshifted]
  dsimp only
  rw [dif_neg hpos]
  refine .finite ?_ ?_ ?_
  all_goals
    rw [hfinal]
    omega

theorem round {s : Sign} {m : Nat} (hpos : m ≠ 0) (hm : m.log2 < 64) :
    Normal (UnpackedFloat.round .binary64 s m 0) := by
  have htarget : Format.targetExponent .binary64 (totalExponent m 0) = m.log2 - 52 := by
    rw [targetExponent_eq]
    omega
  -- a number of fewer digits is filled up with zeros first
  have hshift := log2_shiftLeft hpos (0 - ((m.log2 : Int) - 52)).toNat
  simp only [UnpackedFloat.round, decreaseExponent, htarget]
  exact .roundWithAccuracy (by omega) (by omega) (by omega)

theorem unpack_pack {x : UnpackedFloat} (h : Normal x) :
    Normal (UnpackedFloat.unpack .binary64 (UnpackedFloat.pack .binary64 x)) := by
  cases h with
  | @finite s m e hpos digits low high =>
    have hexponent : (BitVec.ofNat 11 (e + 1023 + 52).toNat).toNat = (e + 1023 + 52).toNat := by
      rw [BitVec.toNat_ofNat]
      omega
    have hother : ∀ k : BitVec 11, (e + 1023 + 52).toNat ≠ k.toNat →
        BitVec.ofNat 11 (e + 1023 + 52).toNat ≠ k := by
      rintro k hne rfl
      exact hne hexponent.symm
    have hgreatest : (-1#11).toNat = 2047 := rfl
    have hleast : (0#11).toNat = 0 := rfl
    obtain ⟨t, hpos', hunpack⟩ := unpack_packComponents (s := s) (f := BitVec.ofNat 52 m)
      (hother (-1#11) (by omega)) (hother 0#11 (by omega))
    rw [pack_finite digits high, hunpack]
    exact .finite (log2_toNat_one_append _) (by omega) (by omega)

/-! ## Integers -/

theorem toFloat {n : UInt64} (h : n ≠ 0) : Normal n.toFloat.toModel.unpack := by
  have hpos : n.toNat ≠ 0 := fun e ↦ h (UInt64.toNat_inj.1 e)
  have hcompare : compare (n.toNat : Int) 0 = .gt := Std.compare_eq_gt.2 (by omega)
  have hround : UnpackedFloat.ofUInt64 .binary64 n =
      UnpackedFloat.round .binary64 .positive n.toNat 0 := by
    simp only [UnpackedFloat.ofUInt64, UnpackedFloat.ofNat, UnpackedFloat.ofInt,
      UnpackedFloat.normalize, hcompare, Int.toNat_natCast]
  change Normal (UnpackedFloat.unpack .binary64
    (UnpackedFloat.pack .binary64 (UnpackedFloat.ofUInt64 .binary64 n)))
  rw [hround]
  exact (Normal.round hpos ((Nat.log2_lt hpos).2 n.toNat_lt)).unpack_pack

theorem nearestFloat {n : Int64} (h : n ≠ 0) :
    Normal (Value.nearestFloat n).toModel.unpack := by
  have hmagnitude : UInt64.ofNat n.toInt.natAbs ≠ 0 := by
    have hlow := Int64.le_toInt n
    have hhigh := Int64.toInt_lt n
    have hne : n.toInt ≠ 0 := fun e ↦ h (Int64.toInt_inj.1 e)
    intro hzero
    have hrest : n.toInt.natAbs % 2 ^ 64 = 0 := congrArg UInt64.toNat hzero
    omega
  unfold Value.nearestFloat
  dsimp only
  split
  · exact (toFloat hmagnitude).neg.unpack_pack
  · exact toFloat hmagnitude

end Normal

namespace Value

theorem nearestFloat_beq_zero (n : Int64) : (nearestFloat n == 0) = (n == 0) := by
  by_cases h : n = 0
  · subst h
    rfl
  · exact ((Normal.nearestFloat h).beq_zero .positive).trans (beq_eq_false_iff_ne.2 h).symm

end Value

end Skirmish.Script
