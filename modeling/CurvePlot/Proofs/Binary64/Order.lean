import CurvePlot.Proofs.Binary64.Bits

/-! The order of numbers.

`value` gives every number that is not excluded from the order its value, in multiples of the smallest
positive one, and an infinity that of the first magnitude past the finite ones. Numbers are compared by
their values (`le_iff`, `lt_iff`). A magnitude is its significand with a weight
(`exists_canonical`), which is how the core model holds it (`unpacked_canonical`). -/

namespace CurvePlot.Binary64

open Float.Model (UnpackedFloat)
open Float.Model.UnpackedFloat

/-! ## Significands -/

/-- The significand `m` of weight `2 ^ g` is that of a magnitude: it has 53 bits, or fewer with the least
weight. -/
structure Canonical (m g : Nat) : Prop where
  lt : m < 2 ^ 53
  le : 2 ^ 52 ≤ m ∨ g = 0

variable {m n g : Nat} {negative : Bool}

theorem exists_canonical (n : Nat) : ∃ m g, n = g * 2 ^ 52 + m ∧ Canonical m g := by
  by_cases h : n < 2 ^ 52
  · exact ⟨n, 0, by omega, by omega, .inr rfl⟩
  · exact ⟨2 ^ 52 + n % 2 ^ 52, n / 2 ^ 52 - 1, by omega, by omega, .inl (by omega)⟩

/-- A significand that was rounded up may be the least one of the next weight. -/
theorem units_eq (hm : m ≤ 2 ^ 53) (hg : 2 ^ 52 ≤ m ∨ g = 0) :
    units (g * 2 ^ 52 + m) = m * 2 ^ g := by
  by_cases h : m < 2 ^ 52
  · obtain rfl : g = 0 := hg.resolve_left (by omega)
    rw [Nat.zero_mul, Nat.zero_add, units_of_lt h, Nat.pow_zero, Nat.mul_one]
  · rw [units_of_le (by omega)]
    rcases Nat.lt_or_eq_of_le hm with hlt | rfl
    · have hdiv : (g * 2 ^ 52 + m) / 2 ^ 52 - 1 = g := by omega
      have hmod : 2 ^ 52 + (g * 2 ^ 52 + m) % 2 ^ 52 = m := by omega
      rw [hdiv, hmod]
    · have hdiv : (g * 2 ^ 52 + 2 ^ 53) / 2 ^ 52 - 1 = g + 1 := by omega
      have hmod : 2 ^ 52 + (g * 2 ^ 52 + 2 ^ 53) % 2 ^ 52 = 2 ^ 52 := by omega
      rw [hdiv, hmod, Nat.pow_succ 2 g, ← Nat.mul_assoc, Nat.mul_right_comm,
        ← Nat.pow_succ]

theorem Canonical.units (h : Canonical m g) : units (g * 2 ^ 52 + m) = m * 2 ^ g :=
  units_eq (Nat.le_of_lt h.lt) h.le

theorem unpacked_canonical (h : Canonical m g) (hm : 0 < m) (hn : g * 2 ^ 52 + m < infinity) :
    unpacked negative (g * 2 ^ 52 + m) = .finite (signOf negative) m (g - 1074 : Int) hm := by
  have hlt := h.lt
  by_cases hsub : g * 2 ^ 52 + m < 2 ^ 52
  · obtain rfl : g = 0 := by omega
    simp only [Nat.zero_mul, Nat.zero_add] at hsub ⊢
    exact unpacked_subnormal hm hsub
  · have hdiv : (g * 2 ^ 52 + m) / 2 ^ 52 = g + 1 := by
      rcases h.le with hle | rfl <;> omega
    have hmod : 2 ^ 52 + (g * 2 ^ 52 + m) % 2 ^ 52 = m := by omega
    rw [unpacked_normal (by omega) hn]
    congr 1
    omega

/-! ## Comparing -/

theorem units_strictMono : StrictMono units := by
  refine strictMono_nat_of_lt_succ fun n => ?_
  rw [units_succ]
  exact Nat.lt_add_of_pos_right (Nat.two_pow_pos _)

theorem units_zero : units 0 = 0 := rfl

theorem Canonical.compare_eq {k e : Nat} (h : Canonical m g) (h' : Canonical k e) :
    (compare (g - 1074 : Int) (e - 1074)).then (compare m k) =
      compare (g * 2 ^ 52 + m) (e * 2 ^ 52 + k) := by
  have hm := h.lt
  have hk := h'.lt
  rcases Nat.lt_trichotomy g e with hge | rfl | hge
  · have hk₀ := h'.le.resolve_right (by omega)
    have hlt : g * 2 ^ 52 + m < e * 2 ^ 52 + k := by omega
    rw [Int.compare_eq_lt.mpr (by omega), Nat.compare_eq_lt.mpr hlt]
    rfl
  · rw [compare_eq_iff_eq.mpr rfl]
    rcases Nat.lt_trichotomy m k with hmk | rfl | hmk
    · rw [Nat.compare_eq_lt.mpr hmk, Nat.compare_eq_lt.mpr (Nat.add_lt_add_left hmk _)]
      rfl
    · rw [compare_eq_iff_eq.mpr rfl, compare_eq_iff_eq.mpr rfl]
      rfl
    · rw [Nat.compare_eq_gt.mpr hmk, Nat.compare_eq_gt.mpr (Nat.add_lt_add_left hmk _)]
      rfl
  · have hm₀ := h.le.resolve_right (by omega)
    have hgt : e * 2 ^ 52 + k < g * 2 ^ 52 + m := by omega
    rw [Int.compare_eq_gt.mpr (by omega), Nat.compare_eq_gt.mpr hgt]
    rfl

/-- The magnitude with its sign. -/
def signed (negative : Bool) (n : Nat) : Int := if negative then -n else n

theorem compare_signed (s : Bool) (n m : Nat) :
    compare (signed s n) (signed s m) = if s then (compare n m).swap else compare n m := by
  rcases Nat.lt_trichotomy n m with h | rfl | h
  · rw [Nat.compare_eq_lt.mpr h]
    cases s
    · exact Int.compare_eq_lt.mpr (Int.ofNat_lt.mpr h)
    · exact Int.compare_eq_gt.mpr (Int.neg_lt_neg (Int.ofNat_lt.mpr h))
  · rw [compare_eq_iff_eq.mpr rfl, compare_eq_iff_eq.mpr rfl]
    cases s <;> rfl
  · rw [Nat.compare_eq_gt.mpr h]
    cases s
    · exact Int.compare_eq_gt.mpr (Int.ofNat_lt.mpr h)
    · exact Int.compare_eq_lt.mpr (Int.neg_lt_neg (Int.ofNat_lt.mpr h))

/-- How the core model holds the number with a sign and a magnitude. -/
inductive Shape (negative : Bool) : Nat → UnpackedFloat → Prop
  | zero : Shape negative 0 (.zero (signOf negative))
  | finite {m g : Nat} (canonical : Canonical m g) (pos : 0 < m) (lt : g * 2 ^ 52 + m < infinity) :
      Shape negative (g * 2 ^ 52 + m) (.finite (signOf negative) m (g - 1074 : Int) pos)
  | infinity : Shape negative infinity (.infinity (signOf negative))

theorem shape_unpacked (h : n ≤ infinity) : Shape negative n (unpacked negative n) := by
  rcases Nat.lt_or_eq_of_le h with h | rfl
  · obtain ⟨m, g, rfl, hc⟩ := exists_canonical n
    rcases Nat.eq_zero_or_pos m with rfl | hm
    · obtain rfl : g = 0 := hc.le.resolve_left (by omega)
      exact .zero
    · rw [unpacked_canonical hc hm h]
      exact .finite hc hm h
  · exact .infinity

theorem Shape.eq_unpacked {u : UnpackedFloat} (h : Shape negative n u) : u = unpacked negative n := by
  cases h with
  | zero => rfl
  | finite hc hm hlt => exact (unpacked_canonical hc hm hlt).symm
  | infinity => rfl

theorem Shape.compare_eq {s t : Bool} {a b : UnpackedFloat} (ha : Shape s n a) (hb : Shape t m b) :
    a.compare b = some (compare (signed s n) (signed t m)) := by
  have hinf := infinity_eq
  cases ha <;> cases hb
  case zero.zero => cases s <;> cases t <;> rfl
  case finite.finite hc _ _ _ _ hd _ _ =>
    cases s <;> cases t
    · rw [compare_signed, ← hc.compare_eq hd]; rfl
    · rw [Int.compare_eq_gt.mpr (by simp only [signed]; grind)]; rfl
    · rw [Int.compare_eq_lt.mpr (by simp only [signed]; grind)]; rfl
    · rw [compare_signed, ← hc.compare_eq hd]; rfl
  case infinity.infinity =>
    cases s <;> cases t
    · rw [compare_eq_iff_eq.mpr rfl]; rfl
    · rw [Int.compare_eq_gt.mpr (by simp only [signed]; grind)]; rfl
    · rw [Int.compare_eq_lt.mpr (by simp only [signed]; grind)]; rfl
    · rw [compare_eq_iff_eq.mpr rfl]; rfl
  -- one of two different shapes has the greater magnitude
  all_goals
    cases s <;> cases t <;>
      first
      | rw [Int.compare_eq_lt.mpr (by simp only [signed]; grind)]; rfl
      | rw [Int.compare_eq_gt.mpr (by simp only [signed]; grind)]; rfl

/-! ## Values -/

section numbers

variable {x y : Float} {s t : Bool}

/-- The value of a number in multiples of the smallest positive one. -/
def value (x : Float) : Int := signed (isNegative x) (units (magnitude x))

theorem signed_units_lt : signed s (units n) < signed t (units m) ↔ signed s n < signed t m := by
  have hlt := units_strictMono.lt_iff_lt (a := n) (b := m)
  have hgt := units_strictMono.lt_iff_lt (a := m) (b := n)
  have hn := units_strictMono.le_iff_le (a := n) (b := 0)
  have hm := units_strictMono.le_iff_le (a := m) (b := 0)
  have h₀ := units_zero
  cases s <;> cases t <;> simp only [signed] <;> grind

theorem compare_signed_units :
    compare (signed s (units n)) (signed t (units m)) = compare (signed s n) (signed t m) := by
  rcases lt_trichotomy (signed s n) (signed t m) with h | h | h
  · rw [Int.compare_eq_lt.mpr h, Int.compare_eq_lt.mpr (signed_units_lt.mpr h)]
  · have hn := mt signed_units_lt.mp (Int.not_lt.mpr (Int.le_of_eq h.symm))
    have hm := mt signed_units_lt.mp (Int.not_lt.mpr (Int.le_of_eq h))
    rw [compare_eq_iff_eq.mpr h, compare_eq_iff_eq.mpr (by omega)]
  · rw [Int.compare_eq_gt.mpr h, Int.compare_eq_gt.mpr (signed_units_lt.mpr h)]

theorem compare_unpack (hx : magnitude x ≤ infinity) (hy : magnitude y ≤ infinity) :
    x.toModel.unpack.compare y.toModel.unpack = some (compare (value x) (value y)) := by
  rw [unpack_toModel, unpack_toModel, (shape_unpacked hx).compare_eq (shape_unpacked hy), value,
    value, compare_signed_units]

theorem lt_iff (hx : magnitude x ≤ infinity) (hy : magnitude y ≤ infinity) :
    x < y ↔ value x < value y := by
  have hlt : x < y ↔ x.toModel.unpack.lt y.toModel.unpack = true := decide_eq_true_iff
  rw [hlt, UnpackedFloat.lt, compare_unpack hx hy, beq_iff_eq, Option.some_inj, Int.compare_eq_lt]

theorem le_iff (hx : magnitude x ≤ infinity) (hy : magnitude y ≤ infinity) :
    x ≤ y ↔ value x ≤ value y := by
  have hle : x ≤ y ↔ x.toModel.unpack.le y.toModel.unpack = true := decide_eq_true_iff
  rw [hle, UnpackedFloat.le, compare_unpack hx hy, Option.any_some, Int.isLE_compare]

/-- Finite numbers are in the order of their values. -/
theorem le_iff_of_isFinite (hx : x.isFinite = true) (hy : y.isFinite = true) :
    x ≤ y ↔ value x ≤ value y :=
  le_iff (Nat.le_of_lt (isFinite_iff.mp hx)) (Nat.le_of_lt (isFinite_iff.mp hy))

end numbers

end CurvePlot.Binary64
