import Mathlib.Algebra.Group.Nat.Defs
import CurvePlot.Decimal.Shortest
import CurvePlot.Proofs.Binary64.Nearest

/-! Reading the shortest decimals back.

The bounds on the leading place in `Decimal.toFloat` only save work (`toFloat_eq`), so a decimal
reads as what its magnitude is. `shortest` tries magnitudes before it answers, and the exact value
it falls back to is that of its magnitude. -/

namespace CurvePlot.Decimal

open Binary64

variable {c e n : Nat} {d : Decimal}

theorem magnitude_eq (d : Decimal) :
    d.magnitude =
      nearest (d.coefficient * 10 ^ d.exponent.toNat * 2 ^ 1074) (10 ^ (-d.exponent).toNat) := by
  rw [magnitude, one_eq, Nat.pow_eq, Nat.pow_eq]

/-! ## Bounds on the leading place -/

theorem lt_pow_length (c : Nat) : c < 10 ^ (Nat.toDigits 10 c).length :=
  (Nat.length_toDigits_le_iff (by decide) Nat.length_toDigits_pos).mp (Nat.le_refl _)

theorem pow_length_le (hc : c ≠ 0) : 10 ^ ((Nat.toDigits 10 c).length - 1) ≤ c := by
  by_cases hlen : (Nat.toDigits 10 c).length - 1 = 0
  · rw [hlen]
    exact Nat.pos_of_ne_zero hc
  · refine Nat.le_of_not_lt fun hlt => ?_
    have := (Nat.length_toDigits_le_iff (by decide) (Nat.pos_of_ne_zero hlen)).mpr hlt
    omega

theorem two_pow_le_ten_pow (h : e ≤ 3 * n) : 2 ^ e ≤ 10 ^ n := by
  calc
    2 ^ e ≤ 2 ^ (3 * n) := Nat.pow_le_pow_right (by decide) h
    _ = (2 ^ 3) ^ n := Nat.pow_mul ..
    _ ≤ 10 ^ n := Nat.pow_le_pow_left (by decide) n

theorem magnitude_le (d : Decimal) : d.magnitude ≤ infinity := nearest_le

theorem magnitude_of_coefficient_eq_zero (h : d.coefficient = 0) : d.magnitude = 0 := by
  rw [magnitude_eq, h]
  refine nearest_of_lt ?_
  rw [Nat.zero_mul, Nat.zero_mul]
  exact Nat.pow_pos (by decide)

theorem magnitude_of_le_leadingPlace (h₀ : d.coefficient ≠ 0) (h : 400 ≤ d.leadingPlace) :
    d.magnitude = infinity := by
  have hlen : 0 < d.digits.length := Nat.length_toDigits_pos
  have hc : 10 ^ (d.digits.length - 1) ≤ d.coefficient := pow_length_le h₀
  have hexp : 400 + (-d.exponent).toNat ≤ d.digits.length - 1 + d.exponent.toNat := by
    rw [leadingPlace] at h
    omega
  rw [magnitude_eq]
  refine nearest_of_le (j := 1024) (k := 1074) (by decide) (Nat.pow_pos (by decide)) ?_
  calc
    2 ^ 1024 * 10 ^ (-d.exponent).toNat ≤ 10 ^ 400 * 10 ^ (-d.exponent).toNat :=
      Nat.mul_le_mul_right _ (two_pow_le_ten_pow (e := 1024) (n := 400) (by decide))
    _ ≤ 10 ^ (d.digits.length - 1) * 10 ^ d.exponent.toNat := by
      rw [← Nat.pow_add, ← Nat.pow_add]
      exact Nat.pow_le_pow_right (by decide) hexp
    _ ≤ d.coefficient * 10 ^ d.exponent.toNat := Nat.mul_le_mul_right _ hc

theorem magnitude_of_leadingPlace_lt (h : d.leadingPlace < -400) : d.magnitude = 0 := by
  have hc : d.coefficient < 10 ^ d.digits.length := lt_pow_length _
  have hexp : d.exponent.toNat = 0 := by
    rw [leadingPlace] at h
    omega
  have hlen : d.digits.length + 400 ≤ (-d.exponent).toNat := by
    rw [leadingPlace] at h
    omega
  rw [magnitude_eq]
  refine nearest_of_lt ?_
  calc
    2 * (d.coefficient * 10 ^ d.exponent.toNat * 2 ^ 1074) = d.coefficient * 2 ^ 1075 := by
      rw [hexp, Nat.pow_zero, Nat.mul_one, Nat.mul_left_comm, ← Nat.pow_succ']
    _ < 10 ^ d.digits.length * 2 ^ 1075 := (Nat.mul_lt_mul_right (Nat.two_pow_pos 1075)).mpr hc
    _ ≤ 10 ^ d.digits.length * 10 ^ 400 :=
      Nat.mul_le_mul_left _ (two_pow_le_ten_pow (e := 1075) (n := 400) (by decide))
    _ ≤ 10 ^ (-d.exponent).toNat := by
      rw [← Nat.pow_add]
      exact Nat.pow_le_pow_right (by decide) hlen

/-- A decimal reads as its magnitude, however great or small it is. -/
theorem toFloat_eq (d : Decimal) : d.toFloat = ofMagnitude false d.magnitude := by
  rw [toFloat]
  split
  · next h => rw [magnitude_of_coefficient_eq_zero h]
  · next h =>
    split
    · next hp => rw [magnitude_of_le_leadingPlace h hp]
    · split
      · next hp => rw [magnitude_of_leadingPlace_lt hp]
      · rfl

/-- A natural number may be written out with its zeros. -/
theorem toFloat_mul_ten_pow (c e : Nat) :
    toFloat ⟨c * 10 ^ e, 0⟩ = toFloat ⟨c, e⟩ := by
  rw [toFloat_eq, toFloat_eq, magnitude_eq, magnitude_eq]
  simp

/-! ## The shortest decimal -/

theorem magnitude_of_onGrid {e : Int} (h : onGrid n e = some d) : d.magnitude = n := by
  unfold onGrid at h
  split at h
  extract_lets c lower upper at h
  split at h
  · next hl => rw [← Option.some.inj h]; exact hl.1
  · split at h
    · next hu => rw [← Option.some.inj h]; exact hu
    · cases h

theorem nearest_five_pow (k : Nat) (h : n ≤ infinity) :
    nearest (units n * 5 ^ k * 10 ^ 0 * 2 ^ k) (10 ^ k) = n := by
  have hnum : units n * 5 ^ k * 10 ^ 0 * 2 ^ k = units n * 10 ^ k := by
    rw [Nat.pow_zero, Nat.mul_one, Nat.mul_assoc, ← Nat.mul_pow]
  rw [hnum, nearest_units (Nat.pow_pos (by decide)) h]

theorem magnitude_exact (h : n ≤ infinity) : (exact n).magnitude = n := by
  rw [exact, magnitude_eq, Nat.pow_eq]
  exact nearest_five_pow 1074 h

theorem magnitude_shortest (h : n ≤ infinity) : (shortest n).magnitude = n := by
  rw [shortest]
  split
  · next h₀ => rw [h₀]; exact magnitude_of_coefficient_eq_zero rfl
  · dsimp only
    cases hs : (List.range 17).findSome? fun (k : Nat) => onGrid n (placeOf n - k) with
    | none => exact magnitude_exact h
    | some d =>
      obtain ⟨k, -, hk⟩ := List.exists_of_findSome?_eq_some hs
      exact magnitude_of_onGrid hk

/-- The shortest decimal of a magnitude reads back. -/
theorem toFloat_shortest (h : n ≤ infinity) : (shortest n).toFloat = ofMagnitude false n := by
  rw [toFloat_eq, magnitude_shortest h]

end CurvePlot.Decimal
