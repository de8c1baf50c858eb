import Mathlib
import Tally.Value

/-! Reals that stand for integers. None of the language is too large for a finite one: rounding
raises the exponent of a number by too little for that. And none but zero becomes a zero: rounding
keeps the first bit of a number. -/

namespace Tally

open Float.Model Float.Model.UnpackedFloat

/-- A number other than zero that the format has room for: no more than 53 bits of mantissa, and no
exponent below the least one. -/
def Representable (u : UnpackedFloat) : Prop :=
  ∃ s m e h, u = .finite s m e h ∧ m < 2 ^ 53 ∧ -1074 ≤ e

section Bits

variable {b : BitVec Format.binary64.numBits} {s : Sign} {m : Nat} {e : Int} {h : 0 < m} {x : Float}

/-- Exponent bits that are all ones are those of reals that are not finite. -/
theorem isFinite_unpack_iff :
    (UnpackedFloat.unpack .binary64 b).isFinite ↔ unpackExponent b ≠ (-1#11) := by
  fun_cases UnpackedFloat.unpack with
  | case1 _ _ _ _ hones => exact iff_of_false Bool.false_ne_true (not_not.mpr hones)
  | case2 _ _ hones => exact iff_of_false Bool.false_ne_true (not_not.mpr hones)
  | case3 _ _ _ _ hones => exact iff_of_true rfl hones
  | case4 _ _ _ _ _ hones => exact iff_of_true rfl hones
  | case5 _ _ _ _ _ hones => exact iff_of_true rfl hones

/-- No finite real has a larger exponent than 971, with 53 bits of mantissa. -/
theorem exponent_of_unpack (hb : UnpackedFloat.unpack .binary64 b = .finite s m e h) : e ≤ 971 := by
  have hones : unpackExponent b ≠ (-1#11) := by
    rw [← isFinite_unpack_iff, hb]
    rfl
  have hlt : (unpackExponent b).toNat < 2047 := by
    have hne : (unpackExponent b).toNat ≠ 2047 := fun hn => hones (BitVec.eq_of_toNat_eq hn)
    have hle := (unpackExponent b).isLt
    simp at hle
    omega
  revert hb
  fun_cases UnpackedFloat.unpack with
  | case1 => exact UnpackedFloat.noConfusion
  | case2 => exact UnpackedFloat.noConfusion
  | case3 => exact UnpackedFloat.noConfusion
  | case4 _ _ start _ _ _ hzero =>
    have hstart : start = ((unpackExponent b).toNat : Int) - 1075 := rfl
    have hzero : (unpackExponent b).toNat = 0 := congrArg BitVec.toNat hzero
    intro hb
    injection hb
    omega
  | case5 _ _ start =>
    have hstart : start = ((unpackExponent b).toNat : Int) - 1075 := rfl
    intro hb
    injection hb
    omega

/-- Up to that exponent nothing overflows. -/
theorem unpackExponent_pack_ne (h : 0 < m) (he : e ≤ 971) :
    unpackExponent (UnpackedFloat.pack .binary64 (.finite s m e h)) ≠ (-1#11) := by
  generalize hu : UnpackedFloat.finite s m e h = u
  fun_cases UnpackedFloat.pack with
  | case1 => cases hu
  | case2 => cases hu
  | case3 => cases hu
  | case4 _ _ exponent _ biased hlarge =>
    have hbiased : biased = (exponent + 1023 + 52).toNat := rfl
    have hlarge : 2048 ≤ biased + 1 := hlarge
    injection hu
    omega
  | case5 _ _ exponent _ _ biased hsmall =>
    have hsmall : ¬ 2048 ≤ biased + 1 := hsmall
    rw [unpackExponent_packComponents]
    intro hones
    have hn : biased % 2048 = 2047 := congrArg BitVec.toNat hones
    omega
  | case6 =>
    rw [unpackExponent_packComponents]
    decide

theorem isFinite_pack (he : e ≤ 971) : (Float.Model.pack (.finite s m e h)).isFinite :=
  isFinite_unpack_iff.mpr (unpackExponent_pack_ne h he)

theorem isFinite_pack_zero : (Float.Model.pack (.zero s)).isFinite := by
  cases s <;> decide

theorem zero_or_finite_of_isFinite (hx : x.isFinite) :
    (∃ s, x.toModel.unpack = .zero s) ∨ ∃ s m e h, x.toModel.unpack = .finite s m e h := by
  have hfinite : x.toModel.unpack.isFinite := hx
  cases hu : x.toModel.unpack with
  | infinity s =>
    rw [hu] at hfinite
    exact absurd hfinite Bool.false_ne_true
  | notANumber =>
    rw [hu] at hfinite
    exact absurd hfinite Bool.false_ne_true
  | zero s => exact .inl ⟨s, rfl⟩
  | finite s m e h => exact .inr ⟨s, m, e, h, rfl⟩

theorem isFinite_neg (hx : x.isFinite) : (-x).isFinite := by
  change (Float.Model.pack x.toModel.unpack.neg).isFinite
  rcases zero_or_finite_of_isFinite hx with ⟨s, hu⟩ | ⟨s, m, e, h, hu⟩
  · rw [hu]
    exact isFinite_pack_zero
  · rw [hu]
    exact isFinite_pack (exponent_of_unpack hu)

end Bits

section Rounding

variable {s : Sign} {m p q : Nat} {e : Int} {a : Accuracy}

theorem mantissaBits_eq : Format.binary64.mantissaBits = 53 := rfl

theorem minExponent_eq : Format.binary64.minExponent = -1074 := by decide

theorem mantissa_shiftRight (em : ExtendedMantissa) (k : Nat) :
    (em >>> k).mantissa = em.mantissa / 2 ^ k := by
  change (Nat.repeat ExtendedMantissa.shiftRightOne k em).mantissa = em.mantissa / 2 ^ k
  induction k with
  | zero => simp [Nat.repeat]
  | succ k ih =>
    rw [Nat.pow_succ, ← Nat.div_div_eq_div_mul, ← ih]
    rfl

theorem le_roundedMantissa (em : ExtendedMantissa) : em.mantissa ≤ em.roundedMantissa := by
  obtain ⟨m, r, t⟩ := em
  cases r <;> cases t <;>
    simp [ExtendedMantissa.roundedMantissa, ExtendedMantissa.accuracy, Accuracy.roundToNearestEven]

theorem roundedMantissa_le (em : ExtendedMantissa) : em.roundedMantissa ≤ em.mantissa + 1 := by
  obtain ⟨m, r, t⟩ := em
  cases r <;> cases t <;>
    simp [ExtendedMantissa.roundedMantissa, ExtendedMantissa.accuracy, Accuracy.roundToNearestEven]
  omega

theorem mantissa_shiftToTargetExponent (m : Nat) (e : Int) (a : Accuracy) :
    (shiftToTargetExponent .binary64 m e a).1.mantissa =
      m / 2 ^ (Format.binary64.targetExponent (totalExponent m e) - e).toNat := by
  have hstart : (ExtendedMantissa.ofMantissaAndAccuracy m a).mantissa = m := by
    unfold ExtendedMantissa.ofMantissaAndAccuracy
    split <;> rfl
  simp only [shiftToTargetExponent, shiftToExponent, mantissa_shiftRight, hstart]

theorem mantissa_shiftToTargetExponent_le (m : Nat) (e : Int) (a : Accuracy) :
    (shiftToTargetExponent .binary64 m e a).1.mantissa ≤ m := by
  rw [mantissa_shiftToTargetExponent]
  exact Nat.div_le_self _ _

/-- The exponent is raised by no more than the digits of the mantissa. -/
theorem exponent_shiftToTargetExponent_le (hm : m < 2 ^ p) (he : e ≤ q) :
    (shiftToTargetExponent .binary64 m e a).2 ≤ q + p := by
  have hlog : m.log2 ≤ p := by
    by_cases hzero : m = 0
    · simp [hzero]
    · exact Nat.le_of_lt ((Nat.log2_lt hzero).mpr hm)
  simp only [shiftToTargetExponent, shiftToExponent, Format.targetExponent, totalExponent,
    mantissaBits_eq, Format.minExponent]
  omega

theorem isFinite_pack_roundWithAccuracy (hm : m + 1 < 2 ^ p) (he : e ≤ q)
    (hbound : q + p + p ≤ 971) :
    (Float.Model.pack (roundWithAccuracy .binary64 s m e a)).isFinite := by
  fun_cases roundWithAccuracy with
  | case1 => exact isFinite_pack_zero
  | case2 first raised hraised rounded second final hfinal =>
    have hmantissa := mantissa_shiftToTargetExponent_le m e a
    have hraise : (shiftToTargetExponent .binary64 m e a).2 ≤ q + p :=
      exponent_shiftToTargetExponent_le (by omega) he
    rw [hraised] at hmantissa hraise
    simp only at hmantissa hraise
    have hrounded : rounded ≤ first.mantissa + 1 := roundedMantissa_le first
    have hend : (shiftToTargetExponent .binary64 rounded raised .exact).2 ≤ (q + p : Nat) + p :=
      exponent_shiftToTargetExponent_le (by omega) (by omega)
    rw [hfinal] at hend
    refine isFinite_pack ?_
    simp only at hend
    omega

/-- A number of 64 digits, without an exponent of its own, stays far below the largest real. -/
theorem isFinite_pack_round (hm : m < 2 ^ 64) :
    (Float.Model.pack (UnpackedFloat.round .binary64 s m 0)).isFinite := by
  unfold UnpackedFloat.round
  simp only [decreaseExponent]
  generalize hk : (0 - Format.binary64.targetExponent (totalExponent m 0)).toNat = k
  have hdigits : k ≤ 52 := by
    simp only [Format.targetExponent, totalExponent, mantissaBits_eq, Format.minExponent] at hk
    omega
  have hsize : m <<< k + 1 < 2 ^ 117 := by
    have hlt : m <<< k < 2 ^ 64 * 2 ^ 52 := by
      rw [Nat.shiftLeft_eq]
      exact Nat.mul_lt_mul_of_lt_of_le hm (Nat.pow_le_pow_right (by omega) hdigits) (by simp)
    omega
  exact isFinite_pack_roundWithAccuracy hsize (show (0 : Int) - k ≤ (0 : Nat) by omega) (by omega)

theorem isFinite_toFloat (n : UInt64) : n.toFloat.isFinite := by
  change (Float.Model.pack (UnpackedFloat.normalize .binary64 (n.toNat : Int) 0 .positive)).isFinite
  have hn := n.toNat_lt
  unfold UnpackedFloat.normalize
  split
  · exact isFinite_pack_round (by omega)
  · exact isFinite_pack_zero
  · exact isFinite_pack_round (by omega)

end Rounding

/-- The real that stands for an integer is finite. -/
theorem isFinite_realOfInteger (n : Int64) : (realOfInteger n).isFinite := by
  unfold realOfInteger
  simp only
  split
  · exact isFinite_neg (isFinite_toFloat _)
  · exact isFinite_toFloat _

section Zero

variable {b : BitVec Format.binary64.numBits} {s : Sign} {m : Nat} {e : Int} {h : 0 < m}
  {a : Accuracy} {u : UnpackedFloat} {x : Float} {n : Int64}

theorem shift_toTargetExponent_eq (he : -1074 ≤ e) :
    (Format.binary64.targetExponent (totalExponent m e) - e).toNat = m.log2 - 52 := by
  simp only [Format.targetExponent, totalExponent, mantissaBits_eq, minExponent_eq]
  omega

/-- A mantissa keeps its first bit when it is shifted, and at most 53 of its bits. -/
theorem bounds_mantissa_shiftToTargetExponent (hm : 0 < m) (he : -1074 ≤ e) :
    0 < (shiftToTargetExponent .binary64 m e a).1.mantissa ∧
      (shiftToTargetExponent .binary64 m e a).1.mantissa < 2 ^ 53 := by
  rw [mantissa_shiftToTargetExponent, shift_toTargetExponent_eq he]
  constructor
  · refine Nat.div_pos ?_ (Nat.two_pow_pos _)
    calc
      2 ^ (m.log2 - 52) ≤ 2 ^ m.log2 := Nat.pow_le_pow_right (by omega) (Nat.sub_le _ _)
      _ ≤ m := Nat.log2_self_le (Nat.ne_of_gt hm)
  · refine Nat.div_lt_of_lt_mul ?_
    calc
      m < 2 ^ (m.log2 + 1) := Nat.lt_log2_self
      _ ≤ 2 ^ (m.log2 - 52 + 53) := Nat.pow_le_pow_right (by omega) (by omega)
      _ = 2 ^ (m.log2 - 52) * 2 ^ 53 := Nat.pow_add ..

theorem le_exponent_shiftToTargetExponent (he : -1074 ≤ e) :
    -1074 ≤ (shiftToTargetExponent .binary64 m e a).2 := by
  simp only [shiftToTargetExponent, shiftToExponent]
  omega

theorem representable_roundWithAccuracy (hm : 0 < m) (he : -1074 ≤ e) :
    Representable (roundWithAccuracy .binary64 s m e a) := by
  have hfirst := (bounds_mantissa_shiftToTargetExponent (a := a) hm he).1
  have hraised := le_exponent_shiftToTargetExponent (m := m) (a := a) he
  have hrounded := Nat.lt_of_lt_of_le hfirst (le_roundedMantissa _)
  have hmantissa := bounds_mantissa_shiftToTargetExponent (a := .exact) hrounded hraised
  have hexponent := le_exponent_shiftToTargetExponent
    (m := (shiftToTargetExponent .binary64 m e a).1.roundedMantissa) (a := .exact) hraised
  exact ⟨s, _, _, hmantissa.1, dif_neg (Nat.ne_of_gt hmantissa.1), hmantissa.2, hexponent⟩

theorem representable_round (hm : 0 < m) : Representable (UnpackedFloat.round .binary64 s m 0) := by
  unfold UnpackedFloat.round
  simp only [decreaseExponent]
  refine representable_roundWithAccuracy ?_ ?_
  · rw [Nat.shiftLeft_eq]
    exact Nat.mul_pos hm (Nat.two_pow_pos _)
  · simp only [Format.targetExponent, minExponent_eq]
    omega

/-- A number that is representable is not packed as a zero: its exponent or its mantissa has a bit
that is set. -/
theorem pack_ne_packedZero (h : Representable u) :
    UnpackedFloat.pack .binary64 u ≠ packedZero .binary64 s := by
  obtain ⟨t, m, e, hm, hu, hsize, he⟩ := h
  intro hzero
  have hexponent := congrArg unpackExponent hzero
  have hmantissa := congrArg unpackMantissa hzero
  rw [packedZero, unpackExponent_packComponents] at hexponent
  rw [packedZero, unpackMantissa_packComponents] at hmantissa
  clear hzero
  revert hexponent hmantissa
  fun_cases UnpackedFloat.pack with
  | case1 => cases hu
  | case2 => cases hu
  | case3 => cases hu
  | case4 =>
    rw [packedInfinity, unpackExponent_packComponents]
    intro hones
    exact absurd hones (by decide)
  | case5 _ _ exponent _ _ biased hsmall =>
    have hbiased : biased = (exponent + 1023 + 52).toNat := rfl
    have hsmall : ¬ 2048 ≤ biased + 1 := hsmall
    rw [unpackExponent_packComponents]
    intro hexponent
    have hn : biased % 2048 = 0 := congrArg BitVec.toNat hexponent
    injection hu
    omega
  | case6 _ mantissa _ _ bits _ _ hbits =>
    have hbits : ¬ mantissa.log2 + 1 = 53 := hbits
    rw [unpackMantissa_packComponents]
    intro _ hmantissa
    have hn : mantissa % 2 ^ 52 = 0 := congrArg BitVec.toNat hmantissa
    obtain ⟨-, rfl, -⟩ := finite.inj hu
    have hlog : mantissa.log2 < 53 := (Nat.log2_lt (Nat.ne_of_gt hm)).mpr hsize
    have hlt : mantissa < 2 ^ 52 := (Nat.log2_lt (Nat.ne_of_gt hm)).mp (by omega)
    omega

theorem unpack_pack_ne_zero (h : Representable u) (s : Sign) :
    (Float.Model.pack u).unpack ≠ .zero s := by
  change UnpackedFloat.unpack .binary64 (UnpackedFloat.pack .binary64 u) ≠ .zero s
  rw [ne_eq, unpack_eq_zero_iff_of_valid (valid_pack ..)]
  exact pack_ne_packedZero h

theorem representable_of_unpack (hb : UnpackedFloat.unpack .binary64 b = .finite s m e h) :
    Representable (.finite s m e h) := by
  refine ⟨s, m, e, h, rfl, ?_⟩
  revert hb
  fun_cases UnpackedFloat.unpack with
  | case1 => exact UnpackedFloat.noConfusion
  | case2 => exact UnpackedFloat.noConfusion
  | case3 => exact UnpackedFloat.noConfusion
  | case4 bits _ start =>
    have hstart : start = ((unpackExponent b).toNat : Int) - 1075 := rfl
    have hbits : bits.toNat < 2 ^ 52 := bits.isLt
    intro hb
    injection hb
    omega
  | case5 bits _ start _ _ _ hne =>
    have hstart : start = ((unpackExponent b).toNat : Int) - 1075 := rfl
    have hbits : (1#1 ++ bits).toNat < 2 ^ 53 := (1#1 ++ bits).isLt
    have hones : (unpackExponent b).toNat ≠ 0 := fun hn => hne (BitVec.eq_of_toNat_eq hn)
    intro hb
    injection hb
    omega

theorem representable_of_isFinite (hx : x.isFinite) (hzero : ∀ s, x.toModel.unpack ≠ .zero s) :
    Representable x.toModel.unpack := by
  rcases zero_or_finite_of_isFinite hx with ⟨s, hu⟩ | ⟨s, m, e, h, hu⟩
  · exact absurd hu (hzero s)
  · rw [hu]
    exact representable_of_unpack hu

theorem representable_neg (hx : Representable x.toModel.unpack) (hfinite : x.isFinite) :
    Representable (-x).toModel.unpack := by
  refine representable_of_isFinite (isFinite_neg hfinite) ?_
  obtain ⟨s, m, e, h, hu, hrepresentable⟩ := hx
  change ∀ s, (Float.Model.pack x.toModel.unpack.neg).unpack ≠ .zero s
  rw [hu]
  exact unpack_pack_ne_zero ⟨_, m, e, h, rfl, hrepresentable⟩

theorem representable_toFloat {k : UInt64} (hk : k ≠ 0) :
    Representable k.toFloat.toModel.unpack := by
  refine representable_of_isFinite (isFinite_toFloat k) ?_
  change ∀ s, (Float.Model.pack
    (UnpackedFloat.normalize .binary64 (k.toNat : Int) 0 .positive)).unpack ≠ .zero s
  have hpos : 0 < k.toNat := Nat.pos_of_ne_zero fun hzero => hk (UInt64.toNat_inj.mp hzero)
  have hcompare : compare (k.toNat : Int) 0 = .gt := compare_gt_iff_gt.mpr (by omega)
  simp only [UnpackedFloat.normalize, hcompare]
  exact unpack_pack_ne_zero (representable_round (by omega))

theorem eq_zero_or_neg_zero_of_beq (h : x == 0) : x = 0 ∨ x = -0 := by
  obtain ⟨-, -, heq | ⟨hx, -⟩ | ⟨hx, -⟩⟩ := Float.beq_iff_ne_nan_and_eq.mp h
  · exact .inl heq
  · exact .inl hx
  · exact .inr hx

theorem not_beq_zero_of_representable (h : Representable x.toModel.unpack) : ¬ x == 0 := by
  obtain ⟨s, m, e, hm, hu, -⟩ := h
  intro hbeq
  rcases eq_zero_or_neg_zero_of_beq hbeq with rfl | rfl
  · have hzero : (0 : Float).toModel.unpack = .zero .positive := rfl
    cases hzero.symm.trans hu
  · have hzero : (-0 : Float).toModel.unpack = .zero .negative := rfl
    cases hzero.symm.trans hu

theorem representable_realOfInteger (hn : n ≠ 0) :
    Representable (realOfInteger n).toModel.unpack := by
  have hsize : n.toInt.natAbs.toUInt64 ≠ 0 := by
    intro hzero
    have hmod : n.toInt.natAbs % 2 ^ 64 = 0 := by
      rw [← UInt64.toNat_inj] at hzero
      simpa using hzero
    have hlt := n.toInt_lt
    have hle := n.le_toInt
    exact hn (Int64.toInt_inj.mp (by simp; omega))
  unfold realOfInteger
  simp only
  split
  · exact representable_neg (representable_toFloat hsize) (isFinite_toFloat _)
  · exact representable_toFloat hsize

/-- Only zero is made a real zero. -/
theorem realOfInteger_beq_zero_iff : realOfInteger n == 0 ↔ n = 0 := by
  constructor
  · intro hbeq
    by_contra hn
    exact not_beq_zero_of_representable (representable_realOfInteger hn) hbeq
  · rintro rfl
    decide

end Zero

end Tally
