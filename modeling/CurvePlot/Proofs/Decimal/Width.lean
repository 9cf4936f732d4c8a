import CurvePlot.Decimal.Layout
import CurvePlot.Proofs.Binary64.Rounding
import CurvePlot.Proofs.Decimal.ReadBack

/-! How long the written forms of numbers are.

A number to three places is as long as its digits, the point and a sign (`length_fixed`), and the greater
it is the more digits it has (`threePlaces_lt_iff`). A number to three digits with a power of ten has at
most ten characters (`length_rounded_le`), which needs that the leading place of the value is not
underestimated (`placeOf_bounds`). -/

namespace CurvePlot.Decimal

open Binary64

variable {n : Nat} {d : Decimal} {e : Int} {x : Float}

/-! ## Digits -/

theorem length_digits_pos (d : Decimal) : 0 < d.digits.length := Nat.length_toDigits_pos

theorem length_digits_le {k : Nat} (hk : 0 < k) :
    d.digits.length ≤ k ↔ d.coefficient < 10 ^ k :=
  Nat.length_toDigits_le_iff (by decide) hk

/-- The digits and the point, with a zero in front of the point. -/
theorem length_positional (h : d.exponent < 0) :
    d.positional.length = max d.digits.length ((-d.exponent).toNat + 1) + 1 := by
  rw [positional, if_neg (Int.not_le.mpr h)]
  dsimp only
  split
  · rw [List.length_append, List.length_cons, List.length_take, List.length_drop]
    omega
  · rw [List.length_append, List.length_cons, List.length_cons, List.length_replicate]
    omega

theorem length_signed (negative : Bool) (cs : List Char) :
    (signed negative cs).length = cs.length + if negative then 1 else 0 := by
  cases negative <;> rfl

theorem length_integerText_le (h : e.natAbs < 1000) : (integerText e).length ≤ 4 := by
  have hdigits : (Nat.toDigits 10 e.natAbs).length ≤ 3 :=
    (Nat.length_toDigits_le_iff (by decide) (by decide)).mpr h
  rw [integerText, length_signed]
  split <;> omega

theorem length_scientific_le (hd : d.coefficient < 1000) (he : d.leadingPlace.natAbs < 1000) :
    d.scientific.length ≤ 9 := by
  have hpower := length_integerText_le he
  have hdigits : d.digits.length ≤ 3 := (length_digits_le (by decide)).mpr hd
  rw [scientific, List.length_append, List.length_cons]
  split
  · next hds =>
    rw [hds, List.length_cons, List.length_cons] at hdigits
    rw [List.length_cons, List.length_cons, List.length_cons]
    omega
  · omega

theorem length_write {f : Nat → List Char} (h : Binary64.magnitude x < infinity) :
    (write f x).length = (f (Binary64.magnitude x)).length + if isNegative x then 1 else 0 := by
  simp only [write, if_neg (Nat.lt_asymm h), if_neg (Nat.ne_of_lt h), length_signed]

/-- What is not finite has a short text. -/
theorem length_write_le {f : Nat → List Char} (h : infinity ≤ Binary64.magnitude x) :
    (write f x).length ≤ 4 := by
  rw [write]
  split
  · decide
  · rw [if_pos (by omega), length_signed]
    split <;> decide

/-! ## The leading place -/

theorem one_mul_pow_pos (e : Int) : 0 < one * 10 ^ e.toNat :=
  Nat.mul_pos (by decide) (Nat.pow_pos (by decide))

theorem scaled_eq (n : Nat) (e : Int) :
    scaled n e = (units n * 10 ^ (-e).toNat, one * 10 ^ e.toNat) := by
  rw [scaled, Nat.pow_eq, Nat.pow_eq]

/-- On the next finer grid a value counts ten times as much. -/
theorem scaled_lt_of_succ {k : Nat} (h : (scaled n (e + 1)).1 < k * (scaled n (e + 1)).2) :
    (scaled n e).1 < 10 * k * (scaled n e).2 := by
  rw [scaled_eq] at *
  dsimp only at *
  by_cases he : 0 ≤ e
  · have hsucc : (e + 1).toNat = e.toNat + 1 := by omega
    have hneg : (-(e + 1)).toNat = 0 := by omega
    have hneg' : (-e).toNat = 0 := by omega
    rw [hsucc, hneg, Nat.pow_succ] at h
    rw [hneg']
    calc
      units n * 10 ^ 0 < k * (one * (10 ^ e.toNat * 10)) := h
      _ = 10 * k * (one * 10 ^ e.toNat) := by ring
  · have hneg : (-e).toNat = (-(e + 1)).toNat + 1 := by omega
    have hzero : (e + 1).toNat = 0 := by omega
    have hzero' : e.toNat = 0 := by omega
    rw [hzero] at h
    rw [hneg, hzero', Nat.pow_succ]
    calc
      units n * (10 ^ (-(e + 1)).toNat * 10) = 10 * (units n * 10 ^ (-(e + 1)).toNat) := by ring
      _ < 10 * (k * (one * 10 ^ 0)) := (Nat.mul_lt_mul_left (by decide)).mpr h
      _ = 10 * k * (one * 10 ^ 0) := by ring

/-- Ten bits are about three digits, the worse the more of them there are. -/
theorem pow_1024_le {q m : Nat} (hm : 1024 ^ m ≤ 10 ^ 4 * 1000 ^ m) (h : q ≤ m) :
    1024 ^ q ≤ 10 ^ 4 * 1000 ^ q := by
  refine Nat.le_of_mul_le_mul_right ?_ (Nat.pow_pos (by decide : 0 < 1000) (n := m - q))
  calc
    1024 ^ q * 1000 ^ (m - q) ≤ 1024 ^ q * 1024 ^ (m - q) :=
      Nat.mul_le_mul_left _ (Nat.pow_le_pow_left (by decide) _)
    _ = 1024 ^ m := by rw [← Nat.pow_add, Nat.add_sub_cancel' h]
    _ ≤ 10 ^ 4 * 1000 ^ m := hm
    _ = 10 ^ 4 * 1000 ^ q * 1000 ^ (m - q) := by
      rw [Nat.mul_assoc, ← Nat.pow_add, Nat.add_sub_cancel' h]

theorem log2_units_lt (h₀ : 0 < n) (h : n < infinity) : (units n).log2 < 2098 := by
  have hinf := infinity_eq
  obtain ⟨m, g, rfl, hc⟩ := exists_canonical n
  have hm := hc.lt
  have hg : g ≤ 2045 := by
    rcases hc.le with hle | rfl <;> omega
  have hpos : units (g * 2 ^ 52 + m) ≠ 0 := Nat.ne_of_gt (units_strictMono h₀)
  rw [Nat.log2_lt hpos, hc.units]
  calc
    m * 2 ^ g < 2 ^ 53 * 2 ^ g := (Nat.mul_lt_mul_right (Nat.two_pow_pos g)).mpr hm
    _ = 2 ^ (53 + g) := (Nat.pow_add 2 53 g).symm
    _ ≤ 2 ^ 2098 := Nat.pow_le_pow_right (by decide) (by omega)

theorem two_pow_le_ten_pow_of_three_tenths {a q : Nat} (h : 3 * a < 10 * q + 10) (hq : q ≤ 306) :
    2 ^ (a + 1) ≤ 10 ^ (q + 4) := by
  have hlast : 1024 ^ (102 * 3) ≤ 10 ^ 4 * 1000 ^ (102 * 3) := by
    rw [Nat.pow_mul, Nat.pow_mul]
    decide +kernel
  refine (Nat.pow_le_pow_iff_left (by decide : 3 ≠ 0)).mp ?_
  calc
    (2 ^ (a + 1)) ^ 3 = 2 ^ ((a + 1) * 3) := (Nat.pow_mul ..).symm
    _ ≤ 2 ^ (10 * q + 12) := Nat.pow_le_pow_right (by decide) (by omega)
    _ = 1024 ^ q * 4096 := by rw [Nat.pow_add, Nat.pow_mul]
    _ ≤ 10 ^ 4 * 1000 ^ q * 10 ^ 8 := Nat.mul_le_mul (pow_1024_le hlast hq) (by decide)
    _ = (10 ^ 3) ^ q * 10 ^ 12 := by ring
    _ = (10 ^ (q + 4)) ^ 3 := by rw [← Nat.pow_mul, ← Nat.pow_add, ← Nat.pow_mul]; ring_nf

theorem ten_pow_le_two_pow_of_three_tenths {b x : Nat} (h : 10 * x ≤ 3 * b) : 10 ^ x ≤ 2 ^ b := by
  refine (Nat.pow_le_pow_iff_left (by decide : 3 ≠ 0)).mp ?_
  calc
    (10 ^ x) ^ 3 = 1000 ^ x := by rw [← Nat.pow_mul, Nat.mul_comm, Nat.pow_mul]
    _ ≤ 1024 ^ x := Nat.pow_le_pow_left (by decide) x
    _ = 2 ^ (10 * x) := (Nat.pow_mul 2 10 x).symm
    _ ≤ 2 ^ (3 * b) := Nat.pow_le_pow_right (by decide) h
    _ = (2 ^ b) ^ 3 := by rw [Nat.mul_comm, Nat.pow_mul]

/-- The search for the leading place starts high enough. -/
theorem two_pow_le_top {l k : Nat} (hl : l < k + 1024) (he : e = (l - k : Int) * 3 / 10 + 4) :
    2 ^ (l + 1) * 10 ^ (-e).toNat ≤ 2 ^ k * 10 ^ e.toNat := by
  by_cases h : 0 ≤ e
  · have hneg : (-e).toNat = 0 := by omega
    rw [hneg, Nat.pow_zero, Nat.mul_one]
    by_cases hsmall : l < k
    · calc
        2 ^ (l + 1) ≤ 2 ^ k := Nat.pow_le_pow_right (by decide) hsmall
        _ ≤ 2 ^ k * 10 ^ e.toNat := Nat.le_mul_of_pos_right _ (Nat.pow_pos (by decide))
    · have hle : 2 ^ (l - k + 1) ≤ 10 ^ (e.toNat - 4 + 4) :=
        two_pow_le_ten_pow_of_three_tenths (by omega) (by omega)
      rw [Nat.sub_add_cancel (by omega)] at hle
      calc
        2 ^ (l + 1) = 2 ^ (k + (l - k + 1)) := by congr 1; omega
        _ = 2 ^ k * 2 ^ (l - k + 1) := Nat.pow_add ..
        _ ≤ 2 ^ k * 10 ^ e.toNat := Nat.mul_le_mul_left _ hle
  · have hpos : e.toNat = 0 := by omega
    have hle : 10 ^ (-e).toNat ≤ 2 ^ (k - (l + 1)) := ten_pow_le_two_pow_of_three_tenths (by omega)
    rw [hpos, Nat.pow_zero, Nat.mul_one]
    calc
      2 ^ (l + 1) * 10 ^ (-e).toNat ≤ 2 ^ (l + 1) * 2 ^ (k - (l + 1)) := Nat.mul_le_mul_left _ hle
      _ = 2 ^ k := by rw [← Nat.pow_add, Nat.add_sub_cancel' (by omega)]

/-- The value of a magnitude is less than the power of ten after its leading place, whose distance from the
units takes at most three digits. -/
theorem placeOf_bounds (h₀ : 0 < n) (h : n < infinity) :
    (scaled n (placeOf n + 1)).1 < (scaled n (placeOf n + 1)).2 ∧ (placeOf n).natAbs < 400 := by
  have hlog := log2_units_lt h₀ h
  simp only [placeOf]
  generalize htop : ((units n).log2 - 1074 : Int) * 3 / 10 + 3 = top
  have hmiss {k : Nat} (hk : ¬ decide ((scaled n (top - k)).2 ≤ (scaled n (top - k)).1) = true) :
      (scaled n (top - k)).1 < (scaled n (top - k)).2 :=
    Nat.lt_of_not_le fun hle => hk (decide_eq_true hle)
  cases hfind : (List.range 8).find? fun (k : Nat) =>
      decide ((scaled n (top - k)).2 ≤ (scaled n (top - k)).1) with
  | none =>
    -- the place is the one behind the last that was tried
    have hplace : top - ((none : Option Nat).getD 8 : Nat) + 1 = top - (7 : Nat) := by
      rw [Option.getD_none]
      omega
    rw [hplace]
    refine ⟨hmiss (List.find?_eq_none.mp hfind 7 (by decide)), ?_⟩
    omega
  | some k =>
    obtain ⟨-, hk, hbelow⟩ := List.find?_range_eq_some.mp hfind
    rw [List.mem_range] at hk
    rw [Option.getD_some]
    refine ⟨?_, by omega⟩
    cases k with
    | zero =>
      -- nothing was tried before it, so the bound has to come from the logarithm
      have hplace : top - (0 : Nat) + 1 = ((units n).log2 - (1074 : Nat) : Int) * 3 / 10 + 4 := by
        omega
      rw [hplace, scaled_eq, one_eq]
      calc
        units n * 10 ^ _ < 2 ^ ((units n).log2 + 1) * 10 ^ _ :=
          (Nat.mul_lt_mul_right (Nat.pow_pos (by decide))).mpr Nat.lt_log2_self
        _ ≤ 2 ^ 1074 * 10 ^ _ := two_pow_le_top hlog rfl
    | succ k =>
      have hplace : top - (k + 1 : Nat) + 1 = top - k := by omega
      rw [hplace]
      exact hmiss (by simpa using hbelow k (Nat.lt_succ_self k))

/-! ## Rounding -/

theorem roundEven_le (num den : Nat) : roundEven num den ≤ num / den + 1 := by
  rw [roundEven]
  split <;> omega

theorem roundEven_eq {num den : Nat} (hden : 0 < den) : roundEven num den = roundRatio num den := by
  rw [roundEven, roundRatio_eq hden]
  rcases Nat.lt_trichotomy (2 * (num % den)) den with hlt | heq | hgt
  · rw [Nat.compare_eq_lt.mpr hlt, if_neg (by omega)]
    rfl
  · rw [compare_eq_iff_eq.mpr heq]
    dsimp only
    split <;> omega
  · rw [Nat.compare_eq_gt.mpr hgt, if_pos (by omega)]

theorem roundEven_mono {num num' den : Nat} (hden : 0 < den) (h : num ≤ num') :
    roundEven num den ≤ roundEven num' den := by
  rw [roundEven_eq hden, roundEven_eq hden]
  exact roundRatio_mono hden hden (Nat.mul_le_mul_right den h)

/-! ## Texts with a power of ten -/

/-- Three digits of a value are a natural number of three digits, or the next one. -/
theorem div_scaled_lt (h₀ : 0 < n) (h : n < infinity) :
    (scaled n (placeOf n - 2)).1 / (scaled n (placeOf n - 2)).2 < 1000 := by
  obtain ⟨hlt, -⟩ := placeOf_bounds h₀ h
  have hone : (scaled n (placeOf n + 1)).1 < 1 * (scaled n (placeOf n + 1)).2 := by omega
  have hunits : (scaled n (placeOf n)).1 < 10 * (scaled n (placeOf n)).2 := scaled_lt_of_succ hone
  have htenths : (scaled n (placeOf n - 1)).1 < 100 * (scaled n (placeOf n - 1)).2 :=
    scaled_lt_of_succ (k := 10) (by rwa [Int.sub_add_cancel])
  rw [Nat.div_lt_iff_lt_mul (by rw [scaled_eq]; exact one_mul_pow_pos _)]
  refine scaled_lt_of_succ (k := 100) ?_
  have hplace : placeOf n - 2 + 1 = placeOf n - 1 := by omega
  rwa [hplace]

/-- The decimal of three digits that a magnitude is rounded to. -/
def threeDigits (n : Nat) : Decimal :=
  let e := placeOf n - 2
  let c := roundEven (scaled n e).1 (scaled n e).2
  if c = 1000 then ⟨100, e + 1⟩ else ⟨c, e⟩

theorem rounded_eq (x : Float) : rounded 2 x = write (fun n => (threeDigits n).scientific) x := rfl

theorem threeDigits_bounds (h₀ : 0 < n) (h : n < infinity) :
    (threeDigits n).coefficient < 1000 ∧ (threeDigits n).exponent.natAbs < 403 := by
  have hdiv := div_scaled_lt h₀ h
  have hround := roundEven_le (scaled n (placeOf n - 2)).1 (scaled n (placeOf n - 2)).2
  have hplace := (placeOf_bounds h₀ h).2
  simp only [threeDigits]
  split <;> dsimp only <;> omega

theorem length_threeDigits_le (h₀ : 0 < n) (h : n < infinity) :
    (threeDigits n).scientific.length ≤ 9 := by
  obtain ⟨hcoefficient, hexponent⟩ := threeDigits_bounds h₀ h
  have hpos := length_digits_pos (threeDigits n)
  have hdigits : (threeDigits n).digits.length ≤ 3 := (length_digits_le (by decide)).mpr hcoefficient
  refine length_scientific_le hcoefficient ?_
  rw [leadingPlace]
  omega

/-- Three digits with a power of ten never take more than ten characters. -/
theorem length_rounded_le (h₀ : 0 < Binary64.magnitude x) : (rounded 2 x).length ≤ 10 := by
  rcases Nat.lt_or_ge (Binary64.magnitude x) infinity with h | h
  · have hlength := length_threeDigits_le h₀ h
    rw [rounded_eq, length_write h]
    split <;> omega
  · exact Nat.le_trans (length_write_le h) (by decide)

/-! ## Texts with three places -/

/-- The decimal with three places that a magnitude is rounded to. -/
def threePlaces (n : Nat) : Decimal := ⟨roundEven (units n * Nat.pow 10 3) one, -3⟩

theorem fixed_eq (x : Float) : fixed 3 x = write (fun n => (threePlaces n).positional) x := rfl

theorem threePlaces_mono {m : Nat} (h : m ≤ n) :
    (threePlaces m).coefficient ≤ (threePlaces n).coefficient :=
  roundEven_mono (by decide) (Nat.mul_le_mul_right _ (units_strictMono.monotone h))

/-- The magnitudes below a number of thousandths are those up to a given one. -/
theorem threePlaces_lt_iff {m b : Nat} (hlt : (threePlaces m).coefficient < b)
    (hle : b ≤ (threePlaces (m + 1)).coefficient) :
    (threePlaces n).coefficient < b ↔ n < m + 1 := by
  constructor
  · intro hn
    refine Nat.lt_of_not_le fun hge => ?_
    exact absurd (Nat.le_trans hle (threePlaces_mono hge)) (Nat.not_le.mpr hn)
  · exact fun hn => Nat.lt_of_le_of_lt (threePlaces_mono (Nat.le_of_lt_succ hn)) hlt

/-- Three places take a point and at least four digits. -/
theorem length_fixed (h : Binary64.magnitude x < infinity) :
    (fixed 3 x).length = max (threePlaces (Binary64.magnitude x)).digits.length 4 + 1 +
      if Binary64.isNegative x then 1 else 0 := by
  rw [fixed_eq, length_write h, length_positional (Int.negSucc_lt_zero 2)]
  rfl

end CurvePlot.Decimal
