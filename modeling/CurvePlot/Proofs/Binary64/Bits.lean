import Mathlib
import CurvePlot.Proofs.Binary64.Nearest

/-! A number as its sign and its magnitude.

`unpacked` takes a sign and a magnitude apart as the float model of the core library does. Both
directions of that model are related to it (`unpack_toBitVec`, `toNat_pack_unpacked`), and from
there on the facts are those of `Float` itself: a number is given by its sign and magnitude
(`ofMagnitude_magnitude`), and the magnitude tells the kinds of numbers apart. -/

namespace CurvePlot.Binary64

open Float.Model (UnpackedFloat)
open Float.Model.UnpackedFloat

/-! ## Fields of a word -/

theorem toNat_packComponents (s : Sign) (e : BitVec 11) (m : BitVec 52) :
    (packComponents .binary64 s e m).toNat =
      s.toBitVec.toNat * 2 ^ 63 + e.toNat * 2 ^ 52 + m.toNat := by
  have he := e.isLt
  have hm := m.isLt
  simp only [packComponents, BitVec.toNat_append]
  rw [← Nat.shiftLeft_add_eq_or_of_lt he, ← Nat.shiftLeft_add_eq_or_of_lt hm, Nat.shiftLeft_eq,
    Nat.shiftLeft_eq]
  omega

theorem toNat_unpackMantissa (b : BitVec 64) :
    (@unpackMantissa .binary64 b).toNat = b.toNat % 2 ^ 52 := by
  simp [unpackMantissa]

theorem toNat_unpackExponent (b : BitVec 64) :
    (@unpackExponent .binary64 b).toNat = b.toNat % 2 ^ 63 / 2 ^ 52 := by
  simp [unpackExponent, Nat.shiftRight_eq_div_pow]
  omega

/-- The sign of the core model for a sign bit. -/
def signOf (negative : Bool) : Sign := if negative then .negative else .positive

theorem toNat_signOf (negative : Bool) :
    (signOf negative).toBitVec.toNat = if negative then 1 else 0 := by
  cases negative <;> rfl

theorem neg_signOf (negative : Bool) : -signOf negative = signOf !negative := by
  cases negative <;> rfl

theorem ofBitVec_unpackSign (b : BitVec 64) :
    Sign.ofBitVec (@unpackSign .binary64 b) = signOf (decide (2 ^ 63 ≤ b.toNat)) := by
  have hb := b.isLt
  have hn : (@unpackSign .binary64 b).toNat = b.toNat / 2 ^ 63 := by
    simp [unpackSign, Nat.shiftRight_eq_div_pow]
    omega
  simp only [Sign.ofBitVec, signOf, ← BitVec.toNat_inj, hn, decide_eq_true_eq]
  split <;> split <;> first | rfl | (simp at *; omega)

/-! ## The core model -/

/-- The number of the core model with this sign and magnitude. -/
def unpacked (negative : Bool) (n : Nat) : UnpackedFloat :=
  if infinity < n then .notANumber
  else if n = infinity then .infinity (signOf negative)
  else if h : n = 0 then .zero (signOf negative)
  else if n < 2 ^ 52 then .finite (signOf negative) n (-1074) (Nat.pos_of_ne_zero h)
  else .finite (signOf negative) (2 ^ 52 + n % 2 ^ 52) (n / 2 ^ 52 - 1075 : Int) (by omega)

section unpacked

variable {negative : Bool} {n : Nat}

theorem unpacked_nan (h : infinity < n) : unpacked negative n = .notANumber := if_pos h

theorem unpacked_infinity : unpacked negative infinity = .infinity (signOf negative) := rfl

theorem unpacked_zero : unpacked negative 0 = .zero (signOf negative) := rfl

theorem unpacked_subnormal (h₀ : 0 < n) (h : n < 2 ^ 52) :
    unpacked negative n = .finite (signOf negative) n (-1074) h₀ := by
  have hinf := infinity_eq
  rw [unpacked, if_neg (by omega), if_neg (by omega), dif_neg (by omega), if_pos h]

theorem unpacked_normal (h₀ : 2 ^ 52 ≤ n) (h : n < infinity) :
    unpacked negative n =
      .finite (signOf negative) (2 ^ 52 + n % 2 ^ 52) (n / 2 ^ 52 - 1075 : Int) (by omega) := by
  rw [unpacked, if_neg (by omega), if_neg (by omega), dif_neg (by omega), if_neg (by omega)]

theorem unpacked_status :
    (unpacked negative n).isFinite = decide (n < infinity) ∧
      (unpacked negative n).isInf = decide (n = infinity) ∧
        (unpacked negative n).isNaN = decide (infinity < n) := by
  rcases Nat.lt_trichotomy n infinity with h | rfl | h
  · rw [decide_eq_true h, decide_eq_false (Nat.ne_of_lt h), decide_eq_false (Nat.lt_asymm h)]
    rw [unpacked, if_neg (Nat.lt_asymm h), if_neg (Nat.ne_of_lt h)]
    split
    · exact ⟨rfl, rfl, rfl⟩
    · split <;> exact ⟨rfl, rfl, rfl⟩
  · exact ⟨rfl, rfl, rfl⟩
  · rw [decide_eq_false (Nat.lt_asymm h), decide_eq_false (Nat.ne_of_gt h), decide_eq_true h,
      unpacked_nan h]
    exact ⟨rfl, rfl, rfl⟩

theorem neg_unpacked : (unpacked negative n).neg = unpacked (!negative) n := by
  simp only [unpacked, ← neg_signOf]
  split
  · rfl
  · split
    · rfl
    · split
      · rfl
      · split <;> rfl

theorem abs_unpacked : (unpacked negative n).abs = unpacked false n := by
  simp only [unpacked]
  split
  · rfl
  · split
    · rfl
    · split
      · rfl
      · split <;> rfl

/-- Both zeros are equal to zero. -/
theorem beq_zero_unpacked (h : n ≤ infinity) :
    (unpacked negative n).beq (.zero .positive) = decide (n = 0) := by
  have hinf := infinity_eq
  rw [unpacked, if_neg (Nat.not_lt_of_le h)]
  split
  · rw [decide_eq_false (by omega)]
    cases negative <;> rfl
  · split
    · next hzero => rw [decide_eq_true hzero]; rfl
    · next hzero =>
      rw [decide_eq_false hzero]
      split <;> cases negative <;> rfl

end unpacked

theorem unpack_toBitVec (b : BitVec 64) :
    unpack .binary64 b = unpacked (decide (2 ^ 63 ≤ b.toNat)) (b.toNat % 2 ^ 63) := by
  have hinf := infinity_eq
  have hm := toNat_unpackMantissa b
  have he := toNat_unpackExponent b
  have hmax : @unpackExponent .binary64 b = -1#11 ↔ b.toNat % 2 ^ 63 / 2 ^ 52 = 2047 := by
    rw [← BitVec.toNat_inj, he]; rfl
  have hmin : @unpackExponent .binary64 b = 0#11 ↔ b.toNat % 2 ^ 63 / 2 ^ 52 = 0 := by
    rw [← BitVec.toNat_inj, he]; rfl
  have hzero : @unpackMantissa .binary64 b = 0#52 ↔ b.toNat % 2 ^ 52 = 0 := by
    rw [← BitVec.toNat_inj, hm]; rfl
  have hone : (1#1 ++ @unpackMantissa .binary64 b).toNat = 2 ^ 52 + b.toNat % 2 ^ 52 := by
    rw [BitVec.toNat_append, ← Nat.shiftLeft_add_eq_or_of_lt (BitVec.isLt _), hm]; rfl
  have hbias : (Float.Model.Format.binary64.exponentBias : Int) = 1023 := rfl
  simp only [unpack, ofBitVec_unpackSign, hmax, hmin, hzero, hone, hm, he, hbias]
  split
  · split
    · rw [show b.toNat % 2 ^ 63 = infinity by omega, unpacked_infinity]
    · rw [unpacked_nan (by omega)]
  · split
    · split
      · rw [show b.toNat % 2 ^ 63 = 0 by omega, unpacked_zero]
      · rw [unpacked_subnormal (by omega) (by omega)]
        congr 1 <;> omega
    · rw [unpacked_normal (by omega) (by omega)]
      congr 1
      omega

theorem toNat_pack_subnormal (s : Sign) {m : Nat} (hm : 0 < m) (h : m < 2 ^ 52) :
    (pack .binary64 (.finite s m (-1074) hm)).toNat = s.toBitVec.toNat * 2 ^ 63 + m := by
  have hlog : m.log2 < 52 := (Nat.log2_lt (by omega)).mpr h
  have hbits : Float.Model.Format.binary64.mantissaBits = 53 := rfl
  simp only [pack]
  rw [if_neg (by decide), if_neg (by omega), toNat_packComponents, BitVec.toNat_ofNat,
    BitVec.toNat_ofNat, Nat.mod_eq_of_lt h]
  omega

theorem toNat_pack_normal (s : Sign) {m e : Nat} (h : m < 2 ^ 52) (h₀ : 0 < e) (he : e < 2047) :
    (pack .binary64 (.finite s (2 ^ 52 + m) (e - 1075 : Int) (by omega))).toNat =
      s.toBitVec.toNat * 2 ^ 63 + e * 2 ^ 52 + m := by
  have hlog : (2 ^ 52 + m).log2 = 52 := (Nat.log2_eq_iff (by omega)).mpr ⟨by omega, by omega⟩
  have hbits : Float.Model.Format.binary64.mantissaBits = 53 := rfl
  have hbias : (Float.Model.Format.binary64.exponentBias : Int) = 1023 := rfl
  have hexp : (e - 1075 + (Float.Model.Format.binary64.exponentBias : Int) + (52 : Nat)).toNat = e := by
    rw [hbias]; omega
  simp only [pack, hexp, hlog]
  rw [if_neg (by omega), if_pos hbits.symm, toNat_packComponents, BitVec.toNat_ofNat,
    BitVec.toNat_ofNat]
  omega

theorem toNat_pack_unpacked (negative : Bool) {n : Nat} (h : n ≤ infinity) :
    (pack .binary64 (unpacked negative n)).toNat = n + if negative then 2 ^ 63 else 0 := by
  have hinf := infinity_eq
  have hs := toNat_signOf negative
  rcases Nat.lt_or_eq_of_le h with h | rfl
  · by_cases h₀ : n = 0
    · subst h₀
      rw [unpacked_zero, pack, packedZero, toNat_packComponents, hs]
      cases negative <;> rfl
    · by_cases h₁ : n < 2 ^ 52
      · rw [unpacked_subnormal (Nat.pos_of_ne_zero h₀) h₁, toNat_pack_subnormal _ _ h₁, hs]
        cases negative <;> simp
        omega
      · have hp := toNat_pack_normal (signOf negative) (Nat.mod_lt n (by decide : 2 ^ 52 > 0))
          (e := n / 2 ^ 52) (by omega) (by omega)
        rw [unpacked_normal (Nat.le_of_not_lt h₁) h]
        refine hp.trans ?_
        rw [hs]
        cases negative <;> simp <;> omega
  · rw [unpacked_infinity, pack, packedInfinity, toNat_packComponents, hs]
    cases negative <;> rfl

/-! ## Numbers -/

section numbers

variable {x : Float} {negative : Bool} {n : Nat}

theorem unpack_toModel (x : Float) :
    x.toModel.unpack = unpacked (isNegative x) (magnitude x) := unpack_toBitVec _

theorem magnitude_eq (x : Float) : magnitude x = x.toBits.toNat % 2 ^ 63 := rfl

theorem isNegative_eq (x : Float) : isNegative x = decide (2 ^ 63 ≤ x.toBits.toNat) := rfl

theorem ofMagnitude_eq (h : n < 2 ^ 63) :
    ofMagnitude negative n = .ofModel (.pack (unpacked negative n)) := by
  have hw : (n + if negative then 2 ^ 63 else 0).toUInt64.toBitVec.toNat =
      n + if negative then 2 ^ 63 else 0 := by
    refine Nat.mod_eq_of_lt ?_
    split <;> omega
  have hs : decide (2 ^ 63 ≤ n + if negative then 2 ^ 63 else 0) = negative := by
    cases negative <;> simp
    omega
  have hn : (n + if negative then 2 ^ 63 else 0) % 2 ^ 63 = n := by
    split <;> omega
  rw [ofMagnitude, show (1 <<< 63 : Nat) = 2 ^ 63 from rfl, Float.ofBits, Float.Model.ofBits,
    unpack_toBitVec, hw, hs, hn]

theorem toNat_toBits_ofMagnitude (h : n ≤ infinity) :
    (ofMagnitude negative n).toBits.toNat = n + if negative then 2 ^ 63 else 0 := by
  have hinf := infinity_eq
  rw [ofMagnitude_eq (by omega)]
  exact toNat_pack_unpacked negative h

theorem magnitude_ofMagnitude (h : n ≤ infinity) : magnitude (ofMagnitude negative n) = n := by
  have hinf := infinity_eq
  rw [magnitude_eq, toNat_toBits_ofMagnitude h]
  split <;> omega

theorem isNegative_ofMagnitude (h : n ≤ infinity) :
    isNegative (ofMagnitude negative n) = negative := by
  have hinf := infinity_eq
  rw [isNegative_eq, toNat_toBits_ofMagnitude h]
  cases negative <;> simp
  omega

theorem ext_bits {y : Float} (h : x.toBits = y.toBits) : x = y := by
  obtain ⟨⟨_, _⟩⟩ := x
  obtain ⟨⟨_, _⟩⟩ := y
  cases h
  rfl

/-- What is a number is given by its sign and magnitude. -/
theorem ofMagnitude_magnitude (h : magnitude x ≤ infinity) :
    ofMagnitude (isNegative x) (magnitude x) = x := by
  have hx : x.toBits.toNat < 2 ^ 64 := x.toBits.toNat_lt
  have hb : (ofMagnitude (isNegative x) (magnitude x)).toBits = x.toBits := by
    rw [← UInt64.toNat_inj, toNat_toBits_ofMagnitude h]
    simp only [isNegative_eq, magnitude_eq, decide_eq_true_eq]
    split <;> omega
  exact ext_bits hb

theorem isFinite_iff : x.isFinite = true ↔ magnitude x < infinity := by
  rw [Float.isFinite, Float.Model.isFinite, unpack_toModel, unpacked_status.1, decide_eq_true_eq]

theorem isInf_iff : x.isInf = true ↔ magnitude x = infinity := by
  rw [Float.isInf, Float.Model.isInf, unpack_toModel, unpacked_status.2.1, decide_eq_true_eq]

theorem isNaN_iff : x.isNaN = true ↔ infinity < magnitude x := by
  rw [Float.isNaN, Float.Model.isNaN, unpack_toModel, unpacked_status.2.2, decide_eq_true_eq]

theorem neg_ofMagnitude (h : n ≤ infinity) :
    -ofMagnitude negative n = ofMagnitude (!negative) n := by
  have hinf := infinity_eq
  have hu := unpack_toModel (ofMagnitude negative n)
  rw [isNegative_ofMagnitude h, magnitude_ofMagnitude h] at hu
  refine (congrArg (fun u => Float.ofModel (.pack (UnpackedFloat.neg u))) hu).trans ?_
  rw [neg_unpacked, ofMagnitude_eq (by omega)]

/-- Taking a minus sign away, and putting it back. -/
theorem neg_of_isNegative (h : magnitude x ≤ infinity) (hs : isNegative x = true) :
    -x = ofMagnitude false (magnitude x) := by
  have hx := ofMagnitude_magnitude h
  rw [hs] at hx
  calc
    -x = -ofMagnitude true (magnitude x) := by rw [hx]
    _ = ofMagnitude false (magnitude x) := neg_ofMagnitude h

theorem magnitude_neg (h : magnitude x ≤ infinity) (hs : isNegative x = true) :
    magnitude (-x) = magnitude x := by
  rw [neg_of_isNegative h hs, magnitude_ofMagnitude h]

theorem neg_neg_of_isNegative (h : magnitude x ≤ infinity) (hs : isNegative x = true) :
    -(-x) = x := by
  have hx := ofMagnitude_magnitude h
  rw [hs] at hx
  rw [neg_of_isNegative h hs, neg_ofMagnitude h]
  exact hx

theorem abs_eq (h : magnitude x ≤ infinity) : x.abs = ofMagnitude false (magnitude x) := by
  have hinf := infinity_eq
  refine (congrArg (fun u => Float.ofModel (.pack (UnpackedFloat.abs u))) (unpack_toModel x)).trans ?_
  rw [abs_unpacked, ofMagnitude_eq (by omega)]

theorem beq_zero (h : magnitude x ≤ infinity) : (x == 0) = decide (magnitude x = 0) := by
  have hbeq : (x == 0) = x.toModel.unpack.beq (.zero .positive) := rfl
  rw [hbeq, unpack_toModel, beq_zero_unpacked h]

theorem eq_infinity (h : magnitude x = infinity) : x = ofMagnitude (isNegative x) infinity := by
  have hx := ofMagnitude_magnitude (Nat.le_of_eq h)
  rwa [h, eq_comm] at hx

theorem toBitVec_toBits_of_gt (h : infinity < magnitude x) :
    x.toBits.toBitVec = packedNaN .binary64 := by
  have hinf := infinity_eq
  have hbits : x.toModel.toBits.toBitVec.toNat % 2 ^ 63 = magnitude x := rfl
  have hlt := x.toModel.toBits.toBitVec.isLt
  refine x.toModel.valid.eq_packedNaN ?_ fun hzero => ?_
  · have hones : (-1#11).toNat = 2047 := rfl
    rw [← BitVec.toNat_inj, toNat_unpackExponent, hones]
    omega
  · have hmantissa : x.toModel.toBits.toBitVec.toNat % 2 ^ 52 = 0 := by
      rw [← toNat_unpackMantissa, hzero]
      rfl
    omega

/-- There is one value that is no number. -/
theorem eq_of_gt {y : Float} (hx : infinity < magnitude x) (hy : infinity < magnitude y) :
    x = y := by
  refine ext_bits (UInt64.toBitVec_inj.mp ?_)
  rw [toBitVec_toBits_of_gt hx, toBitVec_toBits_of_gt hy]

theorem lt_zero_iff (h : magnitude x = infinity) : x < 0 ↔ isNegative x = true := by
  have hlt : x < 0 ↔ x.toModel.unpack.lt (0 : Float).toModel.unpack = true := decide_eq_true_iff
  have hzero : (0 : Float).toModel.unpack = .zero .positive := rfl
  rw [hlt, hzero, unpack_toModel, h, unpacked_infinity]
  cases isNegative x <;> decide

end numbers

end CurvePlot.Binary64
