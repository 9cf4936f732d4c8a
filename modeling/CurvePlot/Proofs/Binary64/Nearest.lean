import Mathlib.Algebra.Group.Nat.Defs
import CurvePlot.Binary64

/-! Rounding to the closest magnitude.

The values of the magnitudes are strictly increasing (`units_succ`), and `floorMagnitude` inverts
them. So `nearest` keeps a value that is exactly that of a magnitude (`nearest_units`). Values out
of the range of the magnitudes give the ends of that range. -/

namespace CurvePlot.Binary64

variable {n num den : Nat}

theorem infinity_eq : infinity = 2047 * 2 ^ 52 := rfl

theorem one_eq : one = 2 ^ 1074 := Nat.one_shiftLeft 1074

theorem units_of_lt (h : n < 2 ^ 52) : units n = n := if_pos h

theorem units_of_le (h : 2 ^ 52 ≤ n) :
    units n = (2 ^ 52 + n % 2 ^ 52) * 2 ^ (n / 2 ^ 52 - 1) :=
  (if_neg (Nat.not_lt.mpr h)).trans (Nat.shiftLeft_eq ..)

theorem floorMagnitude_eq (t : Nat) :
    floorMagnitude t = (t.log2 - 52) * 2 ^ 52 + t / 2 ^ (t.log2 - 52) := by
  rw [floorMagnitude, Nat.shiftLeft_eq, Nat.shiftRight_eq_div_pow]

/-- The distance to the next magnitude. -/
theorem units_succ (n : Nat) : units (n + 1) = units n + 2 ^ (n / 2 ^ 52 - 1) := by
  by_cases hn : n < 2 ^ 52
  · rw [units_of_lt hn, Nat.div_eq_of_lt hn]
    by_cases hs : n + 1 < 2 ^ 52
    · exact units_of_lt hs
    · obtain rfl : n = 2 ^ 52 - 1 := by omega
      rfl
  · rw [units_of_le (Nat.le_of_not_lt hn), units_of_le (by omega)]
    obtain ⟨k, hk⟩ : ∃ k, n / 2 ^ 52 = k + 1 := ⟨n / 2 ^ 52 - 1, by omega⟩
    by_cases hm : n % 2 ^ 52 + 1 < 2 ^ 52
    · have hdiv : (n + 1) / 2 ^ 52 = n / 2 ^ 52 := by omega
      have hmod : (n + 1) % 2 ^ 52 = n % 2 ^ 52 + 1 := by omega
      rw [hdiv, hmod, ← Nat.add_assoc, Nat.add_mul _ 1, Nat.one_mul]
    · have hdiv : (n + 1) / 2 ^ 52 = k + 2 := by omega
      have hmod : (n + 1) % 2 ^ 52 = 0 := by omega
      have hlast : n % 2 ^ 52 = 2 ^ 52 - 1 := by omega
      rw [hdiv, hmod, hlast, hk, Nat.add_sub_cancel, show k + 2 - 1 = k + 1 from rfl, Nat.pow_succ]
      omega

theorem floorMagnitude_units (n : Nat) : floorMagnitude (units n) = n := by
  by_cases hn : n < 2 ^ 52
  · have hlog : n.log2 - 52 = 0 := by
      rcases Nat.eq_zero_or_pos n with rfl | h₀
      · rfl
      · have := (Nat.log2_lt (by omega)).mpr hn
        omega
    simp [floorMagnitude_eq, units_of_lt hn, hlog]
  · have hlog : ((2 ^ 52 + n % 2 ^ 52) * 2 ^ (n / 2 ^ 52 - 1)).log2 - 52 = n / 2 ^ 52 - 1 := by
      have hm : n % 2 ^ 52 < 2 ^ 52 := Nat.mod_lt _ (by decide)
      have hpos : 0 < 2 ^ (n / 2 ^ 52 - 1) := Nat.two_pow_pos _
      have heq : ((2 ^ 52 + n % 2 ^ 52) * 2 ^ (n / 2 ^ 52 - 1)).log2 = 52 + (n / 2 ^ 52 - 1) := by
        refine (Nat.log2_eq_iff (Nat.ne_of_gt (Nat.mul_pos (by omega) hpos))).mpr ⟨?_, ?_⟩
        · rw [Nat.pow_add]
          exact Nat.mul_le_mul_right _ (Nat.le_add_right _ _)
        · rw [show 52 + (n / 2 ^ 52 - 1) + 1 = 53 + (n / 2 ^ 52 - 1) by omega, Nat.pow_add]
          exact Nat.mul_lt_mul_of_pos_right (by omega) hpos
      omega
    rw [units_of_le (Nat.le_of_not_lt hn)]
    simp only [floorMagnitude_eq, hlog]
    rw [Nat.mul_div_cancel _ (Nat.two_pow_pos _)]
    omega

theorem le_floorMagnitude {k : Nat} (h : 2 ^ (52 + k) ≤ n) :
    (k + 1) * 2 ^ 52 ≤ floorMagnitude n := by
  have hn : n ≠ 0 := Nat.ne_of_gt (Nat.lt_of_lt_of_le (Nat.two_pow_pos _) h)
  have hlog : 52 + k ≤ n.log2 := (Nat.le_log2 hn).mpr h
  have hdiv : 2 ^ 52 ≤ n / 2 ^ (n.log2 - 52) := by
    rw [Nat.le_div_iff_mul_le (Nat.two_pow_pos _), ← Nat.pow_add, Nat.add_sub_cancel' (by omega)]
    exact Nat.log2_self_le hn
  rw [floorMagnitude_eq]
  omega

theorem nearest_le : nearest num den ≤ infinity := Nat.min_le_right _ _

/-- The value of a magnitude rounds to it. -/
theorem nearest_units (hden : 0 < den) (hn : n ≤ infinity) :
    nearest (units n * den) den = n := by
  have hlt : 2 * (units n * den) < (units n + units (n + 1)) * den := by
    rw [← Nat.mul_assoc, Nat.two_mul, units_succ]
    exact Nat.mul_lt_mul_of_pos_right (by have := Nat.two_pow_pos (n / 2 ^ 52 - 1); omega) hden
  rw [nearest, Nat.mul_div_cancel _ hden, floorMagnitude_units]
  simp only [Nat.compare_eq_lt.mpr hlt]
  exact Nat.min_eq_left hn

/-- Less than half of the smallest positive value rounds to zero. -/
theorem nearest_of_lt (h : 2 * num < den) : nearest num den = 0 := by
  have hdiv : num / den = 0 := Nat.div_eq_of_lt (by omega)
  have hfloor : floorMagnitude 0 = 0 := rfl
  have hlt : 2 * num < (units 0 + units (0 + 1)) * den := by
    rw [units_succ 0, units_of_lt (by decide)]
    omega
  simp only [nearest, hdiv, hfloor, Nat.compare_eq_lt.mpr hlt]
  exact Nat.zero_min infinity

/-- What is as great as an infinity would be rounds to it. -/
theorem nearest_of_le {j k : Nat} (hjk : 2098 ≤ j + k) (hden : 0 < den) (h : 2 ^ j * den ≤ num) :
    nearest (num * 2 ^ k) den = infinity := by
  have hdiv : 2 ^ (52 + (j + k - 52)) ≤ num * 2 ^ k / den := by
    rw [Nat.le_div_iff_mul_le hden, Nat.add_sub_cancel' (by omega), Nat.pow_add,
      Nat.mul_right_comm]
    exact Nat.mul_le_mul_right _ h
  have hn : infinity ≤ floorMagnitude (num * 2 ^ k / den) := by
    have hk : 2047 ≤ j + k - 52 + 1 := by omega
    rw [infinity_eq]
    exact Nat.le_trans (Nat.mul_le_mul_right _ hk) (le_floorMagnitude hdiv)
  have hup (up : Bool) : floorMagnitude (num * 2 ^ k / den) ≤
      if up then floorMagnitude (num * 2 ^ k / den) + 1 else floorMagnitude (num * 2 ^ k / den) := by
    split <;> omega
  exact Nat.min_eq_right (Nat.le_trans hn (hup _))

end CurvePlot.Binary64
