import Mathlib
import StreamScript.Number.Binary

/-!
# Whole numbers

An integer of less than 53 bits is a float of its own: `Float.ofInt` rounds
nothing, and what it gives is read back as the integer (`ofInt_of_toInt?`).
Only the negative zero is an integer that `Float.ofInt` does not give.

A float other than zero that is not too close to zero has one mantissa of 53
bits and one exponent (`Normal`). The arithmetic of floats unpacks its operands
into these, calculates and rounds, and packs the result; where the result has
few enough digits rounding only shifts the mantissa
(`roundWithAccuracy_of_normal`), and packing and unpacking lose nothing
(`unpack_float`).
-/

namespace StreamScript.Number

open Float.Model (Format totalExponent)
open Float.Model.UnpackedFloat

/-! ## Mantissas of full width

A float that is not too small is written with a mantissa of 53 bits, and then
mantissa and exponent are determined by it. Calculating with such a pair is
calculating with integers, as long as what comes out fits into 53 bits again. -/

/-- **A mantissa of full width** with an exponent in range. These are the
numbers that a float has in the usual way, with the first bit of the mantissa
left out. Below them lie zero and the floats that have fewer digits. -/
structure Normal (m : Nat) (e : Int) : Prop where
  least : 2 ^ 52 ≤ m
  most : m < 2 ^ 53
  lowest : -1074 ≤ e
  highest : e ≤ 971

namespace Normal

variable {m : Nat} {e : Int}

theorem pos (h : Normal m e) : 0 < m :=
  lt_of_lt_of_le (by decide) h.least

/-- The float with this mantissa and this exponent. -/
def float (h : Normal m e) (s : Sign) : Float :=
  .ofModel (.pack (.finite s m e h.pos))

/-- The width of the mantissa, shifted. -/
theorem log2_mul_two_pow (h : Normal m e) (j : Nat) :
    (m * 2 ^ j).log2 = 52 + j := by
  have hpos : m * 2 ^ j ≠ 0 := (Nat.mul_pos h.pos (Nat.two_pow_pos j)).ne'
  refine (Nat.log2_eq_iff hpos).2 ⟨?_, ?_⟩
  · rw [Nat.pow_add]
    exact Nat.mul_le_mul_right _ h.least
  · rw [show 52 + j + 1 = 53 + j by omega, Nat.pow_add]
    exact Nat.mul_lt_mul_of_pos_right h.most (Nat.two_pow_pos j)

end Normal

/-! ## Rounding

Rounding cuts a mantissa to its width and keeps account of what is cut off.
Where only zeros are cut off nothing is rounded. The number of zeros is left
open, as the product of two mantissas has many of them and a shifted integer a
few. -/

variable {m : Nat} {e : Int}

/-- Shifting zeros out of a mantissa is exact. -/
theorem shiftRight_mul_two_pow (m j : Nat) :
    (⟨m * 2 ^ j, false, false⟩ : ExtendedMantissa) >>> j
      = ⟨m, false, false⟩ := by
  show j.repeat ExtendedMantissa.shiftRightOne _ = _
  induction j generalizing m with
  | zero => simp [Nat.repeat]
  | succ j ih =>
    rw [Nat.repeat, Nat.pow_succ', ← Nat.mul_assoc, ih]
    simp [ExtendedMantissa.shiftRightOne]

/-- A mantissa followed by zeros is shifted until the zeros are gone. The
exponent that rounding aims at is the one of the mantissa with full width, so
it is just the zeros that are shifted out. -/
theorem shiftToTargetExponent_of_normal (h : Normal m e) (j : Nat) :
    shiftToTargetExponent .binary64 (m * 2 ^ j) (e - j) .exact
      = (⟨m, false, false⟩, e) := by
  have hlow := h.lowest
  have htarget :
      Format.binary64.targetExponent (totalExponent (m * 2 ^ j) (e - j))
      = e := by
    rw [Format.targetExponent, totalExponent, h.log2_mul_two_pow]
    show max (((52 + j : Nat) : Int) + 1 + (e - j) - (53 : Nat)) (-1074) = e
    push_cast
    omega
  have hamount : (e - (e - (j : Int))).toNat = j := by omega
  rw [shiftToTargetExponent, htarget, shiftToExponent, hamount]
  show ((⟨m * 2 ^ j, false, false⟩ : ExtendedMantissa) >>> j, e - (j : Int) + j)
      = _
  rw [shiftRight_mul_two_pow, Int.sub_add_cancel]

/-- **Rounding a mantissa followed by zeros** takes the zeros away. Nothing
that is cut off counts, so the way of rounding is of no matter. -/
theorem roundWithAccuracy_of_normal (h : Normal m e) (s : Sign) (j : Nat) :
    roundWithAccuracy .binary64 s (m * 2 ^ j) (e - j) .exact
      = .finite s m e h.pos := by
  have hagain := shiftToTargetExponent_of_normal h 0
  rw [Nat.pow_zero, Nat.mul_one, Int.natCast_zero, Int.sub_zero] at hagain
  unfold roundWithAccuracy
  rw [shiftToTargetExponent_of_normal h j]
  simp only [ExtendedMantissa.roundedMantissa, ExtendedMantissa.accuracy,
    Accuracy.roundToNearestEven, hagain, dif_neg h.pos.ne']

/-! ## Packing

A float is sixty-four bits, of which some are the exponent and some are the
mantissa without its first bit. For a mantissa of full width, the exponent
field is neither zero nor the greatest, so that unpacking takes the usual way
and puts the first bit back. -/

/-- The bits of a float of full width. -/
theorem pack_of_normal (h : Normal m e) (s : Sign) :
    Float.Model.UnpackedFloat.pack .binary64 (.finite s m e h.pos) =
      packComponents .binary64 s (BitVec.ofNat 11 (e + 1075).toNat)
      (BitVec.ofNat 52 m) := by
  have hlow := h.lowest
  have hhigh := h.highest
  have hlog : m.log2 = 52 := by simpa using h.log2_mul_two_pow 0
  have hexponent : e + (Format.binary64.exponentBias : Int) + (52 : Nat)
      = e + 1075 := by
    show e + (1023 : Nat) + (52 : Nat) = _
    push_cast
    omega
  unfold Float.Model.UnpackedFloat.pack
  simp only [hexponent]
  rw [if_neg (show ¬ 2 ^ 11 ≤ (e + 1075).toNat + 1 by omega),
    if_pos (by rw [hlog]; rfl)]

/-- **What was packed is unpacked**, for a mantissa of full width. -/
theorem unpack_float (h : Normal m e) (s : Sign) :
    (h.float s).toModel.unpack = .finite s m e h.pos := by
  have hleast := h.least
  have hmost := h.most
  have hlow := h.lowest
  have hhigh := h.highest
  have hbiased : (BitVec.ofNat 11 (e + 1075).toNat).toNat
      = (e + 1075).toNat := by
    rw [BitVec.toNat_ofNat, Nat.mod_eq_of_lt (by omega)]
  have hfinite : BitVec.ofNat 11 (e + 1075).toNat ≠ -1#11 := fun heq => by
    have hval : (-1#11).toNat = 2047 := by decide
    rw [← heq, hbiased] at hval
    omega
  have hnormal : BitVec.ofNat 11 (e + 1075).toNat ≠ 0#11 := fun heq => by
    have hval : (0#11).toNat = 0 := by decide
    rw [← heq, hbiased] at hval
    omega
  have hmantissa : (1#1 ++ BitVec.ofNat 52 m).toNat = m := by
    rw [BitVec.toNat_append, ← Nat.shiftLeft_add_eq_or_of_lt (BitVec.isLt _),
      Nat.shiftLeft_eq, BitVec.toNat_ofNat, BitVec.toNat_ofNat]
    omega
  show unpack .binary64 (pack .binary64 (.finite s m e h.pos)) = _
  rw [pack_of_normal h, unpack]
  simp only [unpackMantissa_packComponents, unpackExponent_packComponents,
    unpackSign_packComponents, Sign.ofBitVec_toBitVec]
  rw [if_neg hfinite, if_neg hnormal]
  simp only [hmantissa, hbiased]
  congr 1
  show ((e + 1075).toNat : Int) - ((1023 : Nat) + (52 : Nat)) = e
  push_cast
  omega

/-- The bits of a float, put together. -/
theorem toNat_packComponents (s : Sign) (e : BitVec 11) (m : BitVec 52) :
    (packComponents .binary64 s e m).toNat =
      s.toBitVec.toNat * 2 ^ 63 + e.toNat * 2 ^ 52 + m.toNat := by
  show (s.toBitVec ++ e ++ m).toNat = _
  rw [BitVec.toNat_append, ← Nat.shiftLeft_add_eq_or_of_lt m.isLt,
    BitVec.toNat_append, ← Nat.shiftLeft_add_eq_or_of_lt e.isLt,
    Nat.shiftLeft_eq, Nat.shiftLeft_eq]
  ring

/-- The bits of a float of full width, as a number. -/
theorem toNat_toBits_float (h : Normal m e) (s : Sign) :
    (h.float s).toBits.toNat =
      s.toBitVec.toNat * 2 ^ 63 + (e + 1075).toNat * 2 ^ 52 + (m - 2 ^ 52) := by
  have hleast := h.least
  have hmost := h.most
  have hlow := h.lowest
  have hhigh := h.highest
  show (Float.Model.UnpackedFloat.pack .binary64 (.finite s m e h.pos)).toNat
      = _
  rw [pack_of_normal h, toNat_packComponents, BitVec.toNat_ofNat,
    BitVec.toNat_ofNat,
    Nat.mod_eq_of_lt (show (e + 1075).toNat < 2 ^ 11 by omega)]
  omega

/-- **A float is its reading**, where the mantissa has full width. Two floats
are equal if their bits are, and the bits are put together from what has been
read. -/
theorem eq_float_of_shape {x : Float} {negative : Bool}
    (h : Shape.ofFloat x = .finite negative m e) (hm : 2 ^ 52 ≤ m) :
    ∃ hn : Normal m e,
      x = hn.float (if negative then .negative else .positive) := by
  have hbits : x.toBits.toNat < 2 ^ 64 := x.toBits.toNat_lt
  simp only [Shape.ofFloat, beq_iff_eq] at h
  split at h
  · split at h <;> cases h
  · next hfinite =>
    split at h
    · cases h
      omega
    · next hnormal =>
      cases h
      have hn : Normal (0x10000000000000 + x.toBits.toNat % 0x10000000000000)
          (((x.toBits.toNat / 0x10000000000000 % 0x800 : Nat) : Int) - 1075) :=
        ⟨by omega, by omega, by omega, by omega⟩
      refine ⟨hn, Float.toBits_inj.1 (UInt64.toNat_inj.1 ?_)⟩
      rw [toNat_toBits_float]
      by_cases hsign : x.toBits.toNat / 0x8000000000000000 = 1
      · rw [if_pos (beq_iff_eq.2 hsign)]
        show _ = 1 * 2 ^ 63 + _ + _
        omega
      · rw [if_neg (mt beq_iff_eq.1 hsign)]
        show _ = 0 * 2 ^ 63 + _ + _
        omega

/-- What is read as zero is a zero. It is one of two, and the sign tells which.
-/
theorem eq_zero_of_shape {x : Float} {negative : Bool}
    (h : Shape.ofFloat x = .finite negative 0 e) :
    x = if negative then -0.0 else 0.0 := by
  have hbits : x.toBits.toNat < 2 ^ 64 := x.toBits.toNat_lt
  simp only [Shape.ofFloat, beq_iff_eq] at h
  split at h
  · split at h <;> cases h
  · split at h
    · simp only [Shape.finite.injEq] at h
      obtain ⟨rfl, hfraction, -⟩ := h
      refine Float.toBits_inj.1 (UInt64.toNat_inj.1 ?_)
      by_cases hsign : x.toBits.toNat / 0x8000000000000000 = 1
      · rw [if_pos (beq_iff_eq.2 hsign),
          show (-0.0 : Float).toBits.toNat = 2 ^ 63 by decide +kernel]
        omega
      · rw [if_neg (mt beq_iff_eq.1 hsign),
          show (0.0 : Float).toBits.toNat = 0 by decide +kernel]
        omega
    · simp only [Shape.finite.injEq] at h
      omega

/-! ## Integers

A natural number of less than 53 bits becomes a float by being shifted until it
has full width. Whether it comes from an unsigned integer, is multiplied by one
or negated, its mantissa is shifted back and forth by zeros alone.

In the other direction, a float whose reading is an integer has a mantissa and
an exponent that belong to this integer. There is only one way to shift an
integer to full width (`normal_unique`), so the float is the one that the
integer becomes. -/

/-- An integer of less than 53 bits, with zeros behind it, has full width. It
is shifted by what it lacks of 53 bits. -/
theorem normal_of_lt {n : Nat} (hn : n ≠ 0) (hlt : n < 2 ^ 53) :
    n.log2 ≤ 52 ∧
      Normal (n * 2 ^ (52 - n.log2)) (-((52 - n.log2 : Nat) : Int)) := by
  have hle : n.log2 ≤ 52 := by
    have := (Nat.log2_lt hn).2 hlt
    omega
  refine ⟨hle, ?_, ?_, by omega, by omega⟩
  · calc 2 ^ 52
      _ = 2 ^ n.log2 * 2 ^ (52 - n.log2) := by
        rw [← Nat.pow_add, Nat.add_sub_cancel' hle]
      _ ≤ n * 2 ^ (52 - n.log2) := Nat.mul_le_mul_right _ (Nat.log2_self_le hn)
  · calc n * 2 ^ (52 - n.log2) < 2 ^ (n.log2 + 1) * 2 ^ (52 - n.log2) :=
          Nat.mul_lt_mul_of_pos_right Nat.lt_log2_self (Nat.two_pow_pos _)
      _ = 2 ^ 53 := by
        rw [← Nat.pow_add, show n.log2 + 1 + (52 - n.log2) = 53 by omega]

/-- One as a float. -/
theorem normal_one : Normal (2 ^ 52) (-52) :=
  ⟨le_rfl, by decide, by decide, by decide⟩

/-- **Multiplying by one** changes nothing. -/
theorem float_mul_one (h : Normal m e) (s : Sign) :
    h.float s * Float.ofBits 0x3FF0000000000000 = h.float s := by
  have hbits : Float.ofBits 0x3FF0000000000000
      = normal_one.float .positive := by decide +kernel
  have hsign : s * .positive = s := by cases s <;> rfl
  show Float.ofModel
      (.pack (mul .binary64 (h.float s).toModel.unpack
        (Float.toModel _).unpack)) = _
  rw [hbits, unpack_float, unpack_float]
  show Float.ofModel
    (.pack (roundWithAccuracy .binary64 (s * .positive) (m * 2 ^ 52)
      (e - (52 : Nat)) .exact)) = _
  rw [roundWithAccuracy_of_normal h, hsign]
  rfl

/-- The negation of a positive float. -/
theorem neg_float (h : Normal m e) :
    -h.float .positive = h.float .negative := by
  show Float.ofModel (.pack (neg (h.float .positive).toModel.unpack)) = _
  rw [unpack_float]
  rfl

theorem isFinite_float (h : Normal m e) (s : Sign) :
    (h.float s).isFinite = true := by
  show isFinite (h.float s).toModel.unpack = true
  rw [unpack_float]
  rfl

/-- A natural number of less than 53 bits as a float. The library rounds an
integer as it rounds anything else, to 53 bits; there is nothing to be cut off.
-/
theorem toFloat_of_lt {n : Nat} (hn : n ≠ 0) (hlt : n < 2 ^ 53) :
    n.toUInt64.toFloat = (normal_of_lt hn hlt).2.float .positive := by
  obtain ⟨hle, hnormal⟩ := normal_of_lt hn hlt
  have htoNat : n.toUInt64.toNat = n :=
    Nat.mod_eq_of_lt (show n < 2 ^ 64 by omega)
  have hcompare : compare (n : Int) 0 = .gt := by
    rw [compare_gt_iff_gt]
    omega
  have htarget : Format.binary64.targetExponent (totalExponent n 0) =
      -((52 - n.log2 : Nat) : Int) := by
    show max ((n.log2 : Int) + 1 + 0 - (53 : Nat)) (-1074) = _
    push_cast
    omega
  have hdecrease : decreaseExponent n 0 (-((52 - n.log2 : Nat) : Int)) =
      (n * 2 ^ (52 - n.log2), -((52 - n.log2 : Nat) : Int)) := by
    have hamount : ((0 : Int) - -((52 - n.log2 : Nat) : Int)).toNat
        = 52 - n.log2 := by omega
    rw [decreaseExponent, hamount, Nat.shiftLeft_eq, Int.zero_sub]
  have hround := roundWithAccuracy_of_normal hnormal .positive 0
  rw [Nat.pow_zero, Nat.mul_one, Int.natCast_zero, Int.sub_zero] at hround
  show Float.ofModel (.pack
    (Float.Model.UnpackedFloat.normalize .binary64 (n.toUInt64.toNat : Int) 0
      .positive)) = _
  rw [htoNat, Float.Model.UnpackedFloat.normalize, hcompare]
  simp only [Int.toNat_natCast, Float.Model.UnpackedFloat.round, htarget,
    hdecrease, hround]
  rfl

/-- **An integer of less than 53 bits is a float.** A float is made of an
integer by reading it as a decimal with no places behind the point. This goes
through a multiplication with a power of ten, which is one here, and a negative
integer is negated at the end. -/
theorem ofInt_signed {n : Nat} (hn : n ≠ 0) (hlt : n < 2 ^ 53)
    (negative : Bool) :
    Float.ofInt (signed negative n) =
      (normal_of_lt hn hlt).2.float
      (if negative then .negative else .positive) := by
  have hnat : Float.ofNat n = (normal_of_lt hn hlt).2.float .positive := by
    show Float.ofScientific n false 0 = _
    rw [Float.ofScientific, dif_pos ⟨hlt, by decide⟩]
    show n.toUInt64.toFloat * Float.ofBits 0x3FF0000000000000 = _
    rw [toFloat_of_lt hn hlt, float_mul_one]
  cases negative with
  | false => exact hnat
  | true =>
    obtain ⟨k, rfl⟩ := Nat.exists_eq_succ_of_ne_zero hn
    show -Float.ofNat (k + 1) = _
    rw [hnat, neg_float]
    rfl

/-- Where rounding down and rounding up agree nothing is rounded. -/
theorem wholePart_mul_of_eq {m : Nat} {q : Int}
    (h : wholePart m q = wholeAbove m q) :
    wholePart m q * 2 ^ (-q).toNat = m * 2 ^ q.toNat := by
  by_cases hq : 0 ≤ q
  · rw [wholePart, if_pos hq, show (-q).toNat = 0 by
      omega, Nat.pow_zero, Nat.mul_one]
    rfl
  · rw [wholePart, wholeAbove, if_neg hq, if_neg hq] at h
    rw [wholePart, if_neg hq, show q.toNat = 0 by
      omega, Nat.pow_zero, Nat.mul_one]
    refine Nat.div_mul_cancel
      (Nat.dvd_of_mod_eq_zero (by_contra fun hrest => ?_))
    have hpos : 0 < Nat.pow 2 (-q).toNat := Nat.two_pow_pos _
    have hsplit := Nat.div_add_mod m (Nat.pow 2 (-q).toNat)
    have hmore : m / Nat.pow 2 (-q).toNat + 1 ≤
        (m + (Nat.pow 2 (-q).toNat - 1)) / Nat.pow 2 (-q).toNat := by
      rw [Nat.le_div_iff_mul_le hpos, Nat.add_mul, Nat.mul_comm, Nat.one_mul]
      change ¬ m % Nat.pow 2 (-q).toNat = 0 at hrest
      omega
    omega

/-- A mantissa is of full width or belongs to the least exponent. -/
theorem full_or_least_of_shape {x : Float} {negative : Bool}
    (h : Shape.ofFloat x = .finite negative m e) :
    2 ^ 52 ≤ m ∨ m < 2 ^ 52 ∧ e = -1074 := by
  simp only [Shape.ofFloat, beq_iff_eq] at h
  split at h
  · split at h <;> cases h
  · split at h
    · cases h
      exact .inr ⟨Nat.mod_lt _ (by decide), rfl⟩
    · cases h
      exact .inl (Nat.le_add_right _ _)

/-- The exponents of one integer with full width are one. One more zero would
double the integer, and so it would be too wide. -/
theorem normal_unique {n j k : Nat} {d e : Int} (hj : Normal (n * 2 ^ j) d)
    (hk : Normal (n * 2 ^ k) e) : j = k := by
  have hle : ∀ {j k : Nat} {d e : Int}, Normal (n * 2 ^ j) d →
      Normal (n * 2 ^ k) e → j ≤ k := by
    intro j k d e hj hk
    by_contra hlt
    have htwice : n * 2 ^ k * 2 ≤ n * 2 ^ j := by
      rw [Nat.mul_assoc, ← Nat.pow_succ]
      exact Nat.mul_le_mul_left _ (Nat.pow_le_pow_right (by decide) (by omega))
    have := hj.most
    have := hk.least
    omega
  exact Nat.le_antisymm (hle hj hk) (hle hk hj)

/-- A float that is a nonzero integer of less than 53 bits. Either its mantissa
has full width and is the integer, shifted, or it belongs to the least
exponent, where there are no integers other than zero. -/
theorem ofInt_of_shape {x : Float} {negative : Bool} {n : Nat}
    (h : Shape.ofFloat x = .finite negative m e)
    (hmul : n * 2 ^ (-e).toNat = m * 2 ^ e.toNat) (hn : n ≠ 0)
    (hlt : n < 2 ^ 53) :
    Float.ofInt (signed negative n) = x ∧ x.isFinite = true := by
  have hfull : 2 ^ 52 ≤ m := by
    obtain hfull | ⟨hsmall, rfl⟩ := full_or_least_of_shape h
    · exact hfull
    · calc 2 ^ 52 ≤ 2 ^ (-(-1074 : Int)).toNat :=
        Nat.pow_le_pow_right (by decide) (by decide)
        _ ≤ n * 2 ^ (-(-1074 : Int)).toNat :=
          Nat.le_mul_of_pos_left _ (Nat.pos_of_ne_zero hn)
        _ = m * 2 ^ 0 := hmul
        _ = m := Nat.mul_one m
  have he : e ≤ 0 := by
    by_contra hpos
    have htwo : 2 ^ 1 ≤ 2 ^ e.toNat :=
      Nat.pow_le_pow_right (by decide) (by omega)
    have hmore : 2 ^ 52 * 2 ^ 1 ≤ m * 2 ^ e.toNat := Nat.mul_le_mul hfull htwo
    rw [show (-e).toNat = 0 by omega, Nat.pow_zero, Nat.mul_one] at hmul
    omega
  obtain ⟨k, rfl⟩ : ∃ k : Nat, e = -(k : Int) := ⟨(-e).toNat, by omega⟩
  obtain rfl : n * 2 ^ k = m := by
    simpa [show (-(-(k : Int))).toNat = k by omega] using hmul
  obtain ⟨hnormal, rfl⟩ := eq_float_of_shape h hfull
  obtain rfl := normal_unique hnormal (normal_of_lt hn hlt).2
  exact ⟨ofInt_signed hn hlt negative, isFinite_float _ _⟩

/-- **The integer that a float is, as a float**, is the float, unless that is
the negative zero. That one is left out with reason: its integer is zero, and
zero becomes the positive one. -/
theorem ofInt_of_toInt? {x : Float} {n : Int} (h : toInt? x = some n)
    (hlt : n.natAbs < 2 ^ 53) (hx : x ≠ -0.0) :
    Float.ofInt n = x ∧ x.isFinite = true := by
  unfold toInt? at h
  split at h
  next negative m q hshape =>
    split at h
    next hwhole =>
      obtain rfl := Option.some.inj h
      have habs : (signed negative (wholePart m q)).natAbs = wholePart m q := by
        cases negative <;> simp [signed]
      have hmul := wholePart_mul_of_eq hwhole
      rw [habs] at hlt
      by_cases hzero : wholePart m q = 0
      · obtain rfl : m = 0 := by
          rw [hzero, Nat.zero_mul] at hmul
          exact (Nat.mul_eq_zero.1 hmul.symm).resolve_right
            (Nat.two_pow_pos _).ne'
        rw [hzero, eq_zero_of_shape hshape]
        cases negative with
        | true => exact absurd (eq_zero_of_shape hshape) hx
        | false => exact ⟨by decide +kernel, by decide +kernel⟩
      · exact ofInt_of_shape hshape hmul hzero hlt
    next => cases h
  next => cases h

/-- What is an integer, of any size, is finite. No bound is needed for this: an
integer that has more digits than a float keeps is finite all the same. -/
theorem isFinite_of_toInt? {x : Float} {n : Int} (h : toInt? x = some n) :
    x.isFinite = true := by
  unfold toInt? at h
  split at h
  next negative m q hshape =>
    split at h
    next hwhole =>
      obtain hfull | ⟨hsmall, rfl⟩ := full_or_least_of_shape hshape
      · obtain ⟨hnormal, rfl⟩ := eq_float_of_shape hshape hfull
        exact isFinite_float hnormal _
      -- Below the least mantissa of full width only zero is one.
      · have hmul : wholePart m (-1074) * 2 ^ (-(-1074 : Int)).toNat
            = m * 2 ^ 0 :=
          wholePart_mul_of_eq hwhole
        rw [Nat.pow_zero, Nat.mul_one] at hmul
        obtain rfl : m = 0 := by
          obtain hzero | hpos := Nat.eq_zero_or_pos (wholePart m (-1074))
          · rw [← hmul, hzero, Nat.zero_mul]
          · have hlarge : 2 ^ 52 ≤ m := calc
              2 ^ 52 ≤ 2 ^ (-(-1074 : Int)).toNat :=
              Nat.pow_le_pow_right (by decide) (by decide)
              _ ≤ wholePart m (-1074) * 2 ^ (-(-1074 : Int)).toNat :=
                Nat.le_mul_of_pos_left _ hpos
              _ = m := hmul
            omega
        rw [eq_zero_of_shape hshape]
        cases negative <;> decide +kernel
    next => cases h
  next => cases h

end StreamScript.Number
