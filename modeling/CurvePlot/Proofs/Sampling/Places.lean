import CurvePlot.Sampling
import CurvePlot.Proofs.Binary64.Special

/-! The places of a sampling.

A place between the ends of a window is the left end and a distance (`x_eq`). Distances grow with the
number of the place (`distance_mono`), so that all places but the last one are in order behind the left
end. That they do not pass the right end is a matter of rounding: a distance with at most `2 ^ 51` parts
is not greater than the width of the window (`units_distance_le`), unless the product that it is a part
of is too great for a number. -/

namespace CurvePlot.Sampling

open Binary64

variable {s : Sampling} {i j : Nat}

/-- All places are numbers of the window, and each is followed by one that is not on its left. -/
def Ordered (s : Sampling) : Prop :=
  ∀ i < s.steps, (s.x i).isFinite ∧ (s.x (i + 1)).isFinite ∧
    s.window.left ≤ s.x i ∧ s.x i ≤ s.x (i + 1) ∧ s.x (i + 1) ≤ s.window.right

instance : Decidable s.Ordered := Nat.decidableBallLT _ _

/-- The distance between the ends of the window, in multiples of the smallest positive number. -/
def width (s : Sampling) : Nat := (value s.window.right - value s.window.left).toNat

/-- The magnitude of the width times `i`. -/
def multiple (s : Sampling) (i : Nat) : Nat := product (nearest s.width 1) (nearest (i * one) 1)

/-- The magnitude of the distance of the `i`-th place from the left end. -/
def distance (s : Sampling) (i : Nat) : Nat := quotient (s.multiple i) (nearest (s.steps * one) 1)

/-- The value of the place with a distance from the left end. -/
def placed (s : Sampling) (n : Nat) : Int :=
  if n = infinity then units infinity else rounded (value s.window.left + units n)

/-! ## Places as values -/

theorem x_zero (s : Sampling) : s.x 0 = s.window.left := if_pos (.inr rfl)

theorem x_steps (h : 0 < s.steps) : s.x s.steps = s.window.right := by
  rw [x, if_neg (by omega), if_pos (Nat.le_refl _)]

theorem multiple_le : s.multiple i ≤ infinity := product_le

theorem distance_le : s.distance i ≤ infinity := quotient_le

theorem multiple_mono (h : i ≤ j) : s.multiple i ≤ s.multiple j :=
  product_mono (nearest_mul_one_mono h)

theorem distance_mono (hsteps : 0 < s.steps) (h : i ≤ j) : s.distance i ≤ s.distance j :=
  quotient_mono (nearest_mul_one_pos hsteps) (multiple_mono h) multiple_le

theorem placed_mono {n m : Nat} (h : n ≤ m) (hm : m ≤ infinity) : s.placed n ≤ s.placed m := by
  have hbound (z : Int) : rounded z ≤ units infinity := by
    have habs := natAbs_rounded z
    have hunits := units_strictMono.monotone (@nearest_le z.natAbs 1)
    omega
  rw [placed, placed]
  by_cases hinf : m = infinity
  · rw [if_pos hinf]
    split
    · exact Int.le_refl _
    · exact hbound _
  · have hunits := units_strictMono.monotone h
    rw [if_neg hinf, if_neg (by omega)]
    exact rounded_mono (by omega)

section window

variable (hw : s.window.check = .ok ())

include hw

theorem magnitude_left_lt : magnitude s.window.left < infinity :=
  isFinite_iff.mp (Window.check_eq_ok.mp hw).1

theorem magnitude_right_lt : magnitude s.window.right < infinity :=
  isFinite_iff.mp (Window.check_eq_ok.mp hw).2.1

theorem value_left_lt : value s.window.left < value s.window.right :=
  (lt_iff (Nat.le_of_lt (magnitude_left_lt hw)) (Nat.le_of_lt (magnitude_right_lt hw))).mp
    (Window.check_eq_ok.mp hw).2.2

theorem sub_eq_width : s.window.right - s.window.left = ofMagnitude false (nearest s.width 1) := by
  have hlt := value_left_lt hw
  have hwidth : (value s.window.right - value s.window.left).natAbs = s.width := by
    rw [width]
    omega
  rw [← hwidth]
  exact (sub_of_lt (magnitude_right_lt hw) (magnitude_left_lt hw) hlt).1

theorem value_left_le_placed {n : Nat} (hn : n ≤ infinity) : value s.window.left ≤ s.placed n := by
  have hzero : s.placed 0 = value s.window.left := by
    rw [placed, if_neg (by decide), units_zero, Int.natCast_zero, Int.add_zero,
      rounded_value (Nat.le_of_lt (magnitude_left_lt hw))]
  rw [← hzero]
  exact placed_mono (Nat.zero_le n) hn

/-- A number between the ends of the window is finite. -/
theorem isFinite_of_between {y : Float} (hleft : value s.window.left ≤ value y)
    (hright : value y ≤ value s.window.right) : y.isFinite = true := by
  have hl := units_strictMono (magnitude_left_lt hw)
  have hr := units_strictMono (magnitude_right_lt hw)
  rw [← natAbs_value] at hl hr
  rw [isFinite_iff, ← units_strictMono.lt_iff_lt, ← natAbs_value]
  omega

variable (hsteps : s.steps ≤ 2 ^ 64)

include hsteps

theorem mul_eq_multiple (h₀ : 0 < i) (hi : i ≤ s.steps) :
    (s.window.right - s.window.left) * ofNat i = ofMagnitude false (s.multiple i) := by
  rw [sub_eq_width hw, ofNat_eq,
    ofMagnitude_mul nearest_le (nearest_mul_one_pos h₀) (nearest_mul_one_lt (by omega))]
  rfl

theorem x_eq (h₀ : 0 < i) (hi : i < s.steps) :
    s.x i = s.window.left + ofMagnitude false (s.distance i) := by
  rw [x, if_neg (by omega), if_neg (by omega)]
  refine congrArg (s.window.left + ·) ?_
  rw [mul_eq_multiple hw hsteps h₀ (Nat.le_of_lt hi), ofNat_eq,
    ofMagnitude_div multiple_le (nearest_mul_one_pos (by omega)) (nearest_mul_one_lt hsteps)]
  rfl

theorem value_x (h₀ : 0 < i) (hi : i < s.steps) :
    value (s.x i) = s.placed (s.distance i) ∧ magnitude (s.x i) ≤ infinity := by
  have hmag := @magnitude_ofMagnitude false _ (@distance_le s i)
  have hsign := @isNegative_ofMagnitude false _ (@distance_le s i)
  have hvalue := @value_ofMagnitude _ false (@distance_le s i)
  rw [x_eq hw hsteps h₀ hi, placed]
  split
  · next hinf =>
    rw [add_infinity (magnitude_left_lt hw) (hmag.trans hinf), hsign,
      value_ofMagnitude (Nat.le_refl _), magnitude_ofMagnitude (Nat.le_refl _)]
    exact ⟨rfl, Nat.le_refl _⟩
  · have hlt : magnitude (ofMagnitude false (s.distance i)) < infinity := by
      have hle := @distance_le s i
      omega
    rw [value_add (magnitude_left_lt hw) hlt, magnitude_add (magnitude_left_lt hw) hlt, hvalue]
    exact ⟨rfl, nearest_le⟩

/-! ## Order -/

theorem magnitude_x_le (hi : i ≤ s.steps) (h₀ : 0 < s.steps) : magnitude (s.x i) ≤ infinity := by
  rcases Nat.eq_zero_or_pos i with rfl | hpos
  · rw [x_zero]
    exact Nat.le_of_lt (magnitude_left_lt hw)
  · rcases Nat.lt_or_eq_of_le hi with hlt | rfl
    · exact (value_x hw hsteps hpos hlt).2
    · rw [x_steps h₀]
      exact Nat.le_of_lt (magnitude_right_lt hw)

/-- Places in front of the right end are in order. -/
theorem value_x_mono (hij : i ≤ j) (hj : j < s.steps) :
    value s.window.left ≤ value (s.x i) ∧ value (s.x i) ≤ value (s.x j) := by
  have hleft {k : Nat} (hk : k < s.steps) : value s.window.left ≤ value (s.x k) := by
    rcases Nat.eq_zero_or_pos k with rfl | hpos
    · rw [x_zero]
    · rw [(value_x hw hsteps hpos hk).1]
      exact value_left_le_placed hw distance_le
  refine ⟨hleft (by omega), ?_⟩
  rcases Nat.eq_zero_or_pos i with rfl | hpos
  · rw [x_zero]
    exact hleft hj
  · rw [(value_x hw hsteps hpos (by omega)).1, (value_x hw hsteps (by omega) hj).1]
    exact placed_mono (distance_mono (by omega) hij) distance_le

theorem x_mono (hij : i ≤ j) (hj : j < s.steps) : s.window.left ≤ s.x i ∧ s.x i ≤ s.x j := by
  have hi' := magnitude_x_le hw hsteps (i := i) (by omega) (by omega)
  have hj' := magnitude_x_le hw hsteps (i := j) (by omega) (by omega)
  rw [le_iff (Nat.le_of_lt (magnitude_left_lt hw)) hi', le_iff hi' hj']
  exact value_x_mono hw hsteps hij hj

/-- It is the last place in front of the right end that decides. -/
theorem ordered_iff (h₀ : 0 < s.steps) : s.Ordered ↔ s.x (s.steps - 1) ≤ s.window.right := by
  constructor
  · intro hordered
    obtain ⟨-, -, -, hle, -⟩ := hordered (s.steps - 1) (by omega)
    rwa [Nat.sub_add_cancel h₀, x_steps h₀] at hle
  · intro hlast i hi
    have hlast' := (le_iff (magnitude_x_le hw hsteps (by omega) h₀)
      (Nat.le_of_lt (magnitude_right_lt hw))).mp hlast
    have hbetween {k : Nat} (hk : k ≤ s.steps) :
        value s.window.left ≤ value (s.x k) ∧ value (s.x k) ≤ value s.window.right := by
      rcases Nat.lt_or_eq_of_le hk with hlt | rfl
      · obtain ⟨hleft, hle⟩ := value_x_mono hw hsteps (Nat.le_sub_one_of_lt hlt) (by omega)
        exact ⟨hleft, Int.le_trans hle hlast'⟩
      · rw [x_steps h₀]
        exact ⟨Int.le_of_lt (value_left_lt hw), Int.le_refl _⟩
    have hnext : s.x i ≤ s.x (i + 1) := by
      rcases Nat.lt_or_eq_of_le (Nat.succ_le_of_lt hi) with hlt | heq
      · exact (x_mono hw hsteps (Nat.le_succ i) hlt).2
      · obtain rfl : i = s.steps - 1 := by omega
        rw [Nat.sub_add_cancel h₀, x_steps h₀]
        exact hlast
    refine ⟨isFinite_of_between hw (hbetween (by omega)).1 (hbetween (by omega)).2,
      isFinite_of_between hw (hbetween hi).1 (hbetween hi).2,
      (x_mono hw hsteps (Nat.le_refl i) hi).1, hnext, ?_⟩
    rw [le_iff (magnitude_x_le hw hsteps hi h₀) (Nat.le_of_lt (magnitude_right_lt hw))]
    exact (hbetween hi).2

end window

/-! ## Rounding -/

theorem multiple_eq (hwidth : nearest s.width 1 < infinity) (hi : i ≤ 2 ^ 53) :
    s.multiple i = nearest (units (nearest s.width 1) * i) 1 := by
  rw [multiple, product, if_neg (Nat.ne_of_lt hwidth), units_nearest_mul_one hi]
  refine nearest_congr Binary64.one_pos Nat.one_pos ?_
  rw [Nat.mul_one, Nat.mul_assoc]

theorem distance_eq (hfinite : s.multiple i < infinity) (h₀ : 0 < s.steps)
    (hsteps : s.steps ≤ 2 ^ 53) : s.distance i = nearest (units (s.multiple i)) s.steps := by
  rw [distance, quotient, if_neg (Nat.ne_of_lt hfinite), units_nearest_mul_one hsteps]
  refine nearest_congr (Nat.mul_pos h₀ Binary64.one_pos) h₀ ?_
  ring

theorem width_lt_of_multiple_lt (hfinite : s.multiple i < infinity) :
    nearest s.width 1 < infinity := by
  refine Nat.lt_of_le_of_ne nearest_le fun hinf => ?_
  rw [multiple, product, if_pos hinf] at hfinite
  exact Nat.lt_irrefl _ hfinite

/-- With at most `2 ^ 51` parts there is room for the errors of all operations. -/
theorem units_distance_le (hi : i < s.steps) (hsteps : s.steps ≤ 2 ^ 51)
    (hfinite : s.multiple i < infinity) : units (s.distance i) ≤ s.width := by
  have hwidth := width_lt_of_multiple_lt hfinite
  have hmultiple := multiple_eq hwidth (i := i) (by omega)
  obtain ⟨n, hle, hn, -, hbelow⟩ := exists_below_nearest hwidth
  obtain ⟨-, -, -, herror, -⟩ := exists_below_nearest (hmultiple ▸ hfinite)
  rw [← hmultiple] at herror
  have hdistance : s.distance i ≤ n := by
    rw [distance_eq hfinite (by omega) (by omega)]
    have hnearest : nearest (units n * 1) 1 = n := nearest_units Nat.one_pos (by omega)
    rw [← hnearest]
    refine nearest_mono (by omega) Nat.one_pos ?_
    rw [Nat.mul_one, Nat.mul_one]
    -- all three errors are made up for by the part that is missing
    have hparts : (2 ^ 53 + 1) * (2 ^ 52 + 1) * i ≤ 2 ^ 105 * s.steps := by omega
    have hproduct : 2 ^ 105 * units (s.multiple i) ≤ 2 ^ 105 * (units n * s.steps) := by
      calc
        2 ^ 105 * units (s.multiple i) = 2 ^ 52 * (2 ^ 53 * units (s.multiple i)) := by ring
        _ ≤ 2 ^ 52 * ((2 ^ 53 + 1) * (units (nearest s.width 1) * i)) := Nat.mul_le_mul_left _ herror
        _ = (2 ^ 53 + 1) * i * (2 ^ 52 * units (nearest s.width 1)) := by ring
        _ ≤ (2 ^ 53 + 1) * i * ((2 ^ 52 + 1) * units n) := Nat.mul_le_mul_left _ hbelow
        _ = (2 ^ 53 + 1) * (2 ^ 52 + 1) * i * units n := by ring
        _ ≤ 2 ^ 105 * s.steps * units n := Nat.mul_le_mul_right _ hparts
        _ = 2 ^ 105 * (units n * s.steps) := by ring
    exact Nat.le_of_mul_le_mul_left hproduct (Nat.two_pow_pos 105)
  exact Nat.le_trans (units_strictMono.monotone hdistance) hn

section window

variable (hw : s.window.check = .ok ()) (hsteps : s.steps ≤ 2 ^ 64)

include hw hsteps

theorem isFinite_multiple (h₀ : 0 < i) (hi : i ≤ s.steps) :
    ((s.window.right - s.window.left) * ofNat i).isFinite ↔ s.multiple i < infinity := by
  rw [mul_eq_multiple hw hsteps h₀ hi, isFinite_iff, magnitude_ofMagnitude multiple_le]

/-- A product that is too great for a number takes the place out of the window. -/
theorem Ordered.multiple_lt (h : s.Ordered) (h₀ : 0 < i) (hi : i < s.steps) :
    s.multiple i < infinity := by
  refine Nat.lt_of_le_of_ne multiple_le fun hinf => ?_
  have hdistance : s.distance i = infinity := by
    rw [distance, quotient, if_pos hinf]
  have hvalue : (value (s.x i)).natAbs = units infinity := by
    rw [(value_x hw hsteps h₀ hi).1, hdistance, placed, if_pos rfl, Int.natAbs_natCast]
  obtain ⟨hfinite, -⟩ := h i hi
  rw [natAbs_value] at hvalue
  exact Nat.ne_of_lt (units_strictMono (isFinite_iff.mp hfinite)) hvalue

theorem x_le_right (h₀ : 0 < i) (hi : i < s.steps) (hbound : s.steps ≤ 2 ^ 51)
    (hfinite : s.multiple i < infinity) : s.x i ≤ s.window.right := by
  have hlt := magnitude_right_lt hw
  have hwidth := units_distance_le hi hbound hfinite
  have hle := value_left_lt hw
  have hdistance : s.distance i ≠ infinity := by
    intro hinf
    have hnearest : nearest (units infinity * 1) 1 ≤ nearest s.width 1 :=
      nearest_mono Nat.one_pos Nat.one_pos (by rw [← hinf]; omega)
    rw [nearest_units Nat.one_pos (Nat.le_refl _)] at hnearest
    exact Nat.not_lt_of_le hnearest (width_lt_of_multiple_lt hfinite)
  rw [le_iff (magnitude_x_le hw hsteps (Nat.le_of_lt hi) (by omega)) (Nat.le_of_lt hlt),
    (value_x hw hsteps h₀ hi).1, placed, if_neg hdistance, ← rounded_value (Nat.le_of_lt hlt)]
  refine rounded_mono ?_
  rw [width] at hwidth
  omega

end window

/-- **The places of a sampling.** Both ends of the window are hit, and the places in front of the right
end are in order behind the left one. All of them are in the window exactly if the last one of these is;
with at most `2 ^ 51` parts that is so exactly if the width of the window times the number of a place is
never too great for a number. -/
theorem x_ordered (s : Sampling) (hw : s.window.check = .ok ()) (h₀ : 0 < s.steps)
    (hsteps : s.steps < 2 ^ 64) :
    s.x 0 = s.window.left ∧ s.x s.steps = s.window.right ∧
      (∀ i j, i ≤ j → j < s.steps → s.window.left ≤ s.x i ∧ s.x i ≤ s.x j) ∧
      (s.Ordered ↔ s.x (s.steps - 1) ≤ s.window.right) ∧
      (s.steps ≤ 2 ^ 51 → (s.Ordered ↔
        ∀ i < s.steps, 0 < i → ((s.window.right - s.window.left) * ofNat i).isFinite)) := by
  have hword := Nat.le_of_lt hsteps
  refine ⟨x_zero s, x_steps h₀, fun i j hij hj => x_mono hw hword hij hj, ordered_iff hw hword h₀,
    fun hbound => ⟨fun hordered i hi hpos => ?_, fun hfinite => ?_⟩⟩
  · rw [isFinite_multiple hw hword hpos (Nat.le_of_lt hi)]
    exact hordered.multiple_lt hw hword hpos hi
  · rw [ordered_iff hw hword h₀]
    rcases Nat.eq_zero_or_pos (s.steps - 1) with hzero | hpos
    · rw [hzero, x_zero, le_iff (Nat.le_of_lt (magnitude_left_lt hw))
        (Nat.le_of_lt (magnitude_right_lt hw))]
      exact Int.le_of_lt (value_left_lt hw)
    · have hlt : s.steps - 1 < s.steps := by omega
      have hproduct := hfinite _ hlt hpos
      rw [isFinite_multiple hw hword hpos (Nat.le_of_lt hlt)] at hproduct
      exact x_le_right hw hword hpos hlt hbound hproduct

/-- Seven parts of a window that no number divides evenly. -/
theorem x_ordered_sevenths :
    let s : Sampling := ⟨⟨-1, 0.3⟩, 7⟩
    s.window.check = .ok () ∧ s.Ordered ∧ s.x 6 ≤ s.x 7 ∧
      ∀ i < 7, 0 < i → ((s.window.right - s.window.left) * ofNat i).isFinite := by
  intro s
  have hcheck : s.window.check = .ok () := by decide +kernel
  obtain ⟨-, hlast, -, hordered, hfinite⟩ := x_ordered s hcheck (by decide) (by decide)
  have hall : s.Ordered := hordered.mpr (by decide +kernel)
  refine ⟨hcheck, hall, ?_, (hfinite (by decide)).mp hall⟩
  rw [show s.x 7 = s.window.right from hlast]
  exact hordered.mp hall

/-- The middle of the window of all finite numbers is an infinity. -/
theorem not_ordered_greatest :
    let s : Sampling := ⟨⟨-1.7976931348623157e308, 1.7976931348623157e308⟩, 2⟩
    s.window.check = .ok () ∧ s.x 1 = ofMagnitude false infinity ∧ ¬ s.Ordered := by
  decide +kernel

end CurvePlot.Sampling
