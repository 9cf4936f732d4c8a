import CurvePlot.Proofs.Binary64.Special
import CurvePlot.Proofs.Canvas.Labels
import CurvePlot.Proofs.Canvas.Rows

/-! The scale of a picture.

The least of the values is in the first cell, and if their distance is a finite number, the greatest one
is the number of cells less one, rounded to a number and back (`scale_greatest`). A distance that is too
great for a number leaves every value in the first cell (`scale_of_overflow`), because a quotient of two
infinities cannot be placed. `plot_extremes` says of a picture where its extremes are drawn. -/

namespace CurvePlot.Canvas

open Binary64

variable {c : Canvas} {w : Window} {curves : List Curve} {p : Plot} {v lo hi y z : Float}
  {i cells row column : Nat}

/-! ## Cells of the extremes -/

theorem scale_of_magnitude_eq_zero
    (h : magnitude ((v - lo) / (hi - lo) * ofNat (cells - 1)) = 0) : scale v lo hi cells = 0 := by
  rw [scale, if_neg (not_pos_of_magnitude_eq_zero h)]

section finite

variable (hv : v.isFinite = true) (hlo : lo.isFinite = true) (hhi : hi.isFinite = true)

include hv hlo hhi

theorem scale_least (hlt : value lo < value hi) (h : value v = value lo) (hcells : cells ≤ 2 ^ 64) :
    scale v lo hi cells = 0 := by
  rw [isFinite_iff] at hv hlo hhi
  obtain ⟨hsub, hpos⟩ := sub_of_lt hhi hlo hlt
  have hnumerator : magnitude (v - lo) = 0 := magnitude_sub_of_eq hv hlo h
  have hdenominator : magnitude (hi - lo) = nearest (value hi - value lo).natAbs 1 := by
    rw [hsub, magnitude_ofMagnitude nearest_le]
  refine scale_of_magnitude_eq_zero (magnitude_zero_mul ?_ (magnitude_ofNat_lt (by omega)))
  exact magnitude_zero_div hnumerator (hdenominator ▸ hpos) (hdenominator ▸ nearest_le)

theorem scale_greatest (hlt : value lo < value hi) (h : value v = value hi)
    (hfinite : (hi - lo).isFinite = true) (hcells : 1 < cells) (hcells' : cells ≤ 2 ^ 64) :
    scale v lo hi cells = min (roundToNat (ofNat (cells - 1))) (cells - 1) := by
  rw [isFinite_iff] at hv hlo hhi hfinite
  obtain ⟨hsub, hpos⟩ := sub_of_lt hhi hlo hlt
  obtain ⟨hsub', -⟩ := sub_of_lt hv hlo (h ▸ hlt)
  rw [hsub, magnitude_ofMagnitude nearest_le] at hfinite
  have hone : (v - lo) / (hi - lo) = ofNat 1 := by
    rw [hsub', hsub, h, div_self_ofMagnitude hpos hfinite]
  have htop : (v - lo) / (hi - lo) * ofNat (cells - 1) = ofNat (cells - 1) := by
    rw [hone, one_mul_ofNat (by omega) (by omega)]
  simp only [scale, htop, if_pos (ofNat_pos (n := cells - 1) (by omega))]

/-- If the distance of the extremes is no finite number, there is only one cell. -/
theorem scale_of_overflow (hle : value lo ≤ value v) (hlt : value lo < value hi)
    (hinfinite : ¬ (hi - lo).isFinite = true) (hcells : cells ≤ 2 ^ 64) : scale v lo hi cells = 0 := by
  have hcells' : magnitude (ofNat (cells - 1)) < infinity := magnitude_ofNat_lt (by omega)
  rw [isFinite_iff] at *
  obtain ⟨hsub, -⟩ := sub_of_lt hhi hlo hlt
  have hdenominator : magnitude (hi - lo) = infinity := by
    refine Nat.le_antisymm ?_ (Nat.le_of_not_lt hinfinite)
    rw [hsub, magnitude_ofMagnitude nearest_le]
    exact nearest_le
  have hnumerator : magnitude (v - lo) ≤ infinity := by
    rcases Int.lt_or_eq_of_le hle with hlt | heq
    · rw [(sub_of_lt hv hlo hlt).1, magnitude_ofMagnitude nearest_le]
      exact nearest_le
    · rw [magnitude_sub_of_eq hv hlo heq.symm]
      exact Nat.zero_le _
  rcases Nat.lt_or_eq_of_le hnumerator with hnumerator | hnumerator
  · refine scale_of_magnitude_eq_zero (magnitude_zero_mul ?_ hcells')
    rw [div_infinity hnumerator hdenominator, magnitude_ofMagnitude (Nat.zero_le _)]
  · -- the comparison with zero fails, and what cannot be placed goes to the first cell
    rw [scale, if_neg (not_lt_nan (nan_mul (infinity_div_infinity hnumerator hdenominator)))]

end finite

/-! ## Whether there is a picture -/

theorem extremes_eq_none {ys : List Float} : extremes ys = none ↔ ys = [] := by
  cases ys <;> simp [extremes]

theorem plot?_eq_none :
    c.plot? w curves = none ↔ ∀ i column y, ¬ c.Shows w curves i column y := by
  rw [plot?, Option.map_eq_none_iff, extremes_eq_none, List.eq_nil_iff_forall_not_mem]
  simp only [mem_values, not_exists]
  exact ⟨fun h i column y => h y i column, fun h y i column => h i column y⟩

/-- The line that stands for a picture where there is none. -/
def emptyText (w : Window) : String := "nothing to plot in " ++ w.text ++ "\n"

theorem notMem_toList_append {a b : String} {mark : Char} (ha : mark ∉ a.toList)
    (hb : mark ∉ b.toList) : mark ∉ (a ++ b).toList := by
  rw [String.toList_append, List.mem_append]
  exact fun h => h.elim ha hb

theorem notMem_emptyText {mark : Char} (h : ¬ Numeral.InNumber mark)
    (hmark : mark ∉ ['[', ',', ' ', ']']) (hend : mark ≠ '\n') (w : Window) :
    mark ∉ (emptyText w).toList := by
  have hwords : ∀ c ∈ "nothing to plot in ".toList, (c.isAlphanum || c == ' ') = true := by
    simp
  have hsaying : mark ∉ "nothing to plot in ".toList := by
    intro hmem
    obtain hletter | hblank := Bool.or_eq_true_iff.mp (hwords mark hmem)
    · exact h (.inl hletter)
    · rw [beq_iff_eq.mp hblank] at hmark
      exact hmark (by decide)
  have hline : mark ∉ "\n".toList := by simpa using hend
  exact notMem_toList_append (notMem_toList_append hsaying (notMem_window h hmark w)) hline

/-- A picture is no such line, since its rows have bars. -/
theorem render_eq_emptyText_iff : c.render w curves = emptyText w ↔ c.plot? w curves = none := by
  cases hp : c.plot? w curves with
  | none =>
    refine iff_of_true ?_ rfl
    simp only [render, hp]
    rfl
  | some p =>
    have hnobar : '|' ∉ (emptyText w).toList :=
      notMem_emptyText (by decide) (by decide) (by decide) w
    refine iff_of_false (fun h => hnobar ?_) (Option.some_ne_none p)
    have hrows := two_le_rows c
    rw [← h, toList_render hp]
    refine List.mem_append_left _ (List.mem_flatMap.mpr ⟨0, List.mem_range.mpr (by omega), ?_⟩)
    simp [line]

/-! ## Where the extremes are drawn -/

/-- A value that shows, with no lesser one. -/
def Least (c : Canvas) (w : Window) (curves : List Curve) (y : Float) : Prop :=
  (∃ i column, c.Shows w curves i column y) ∧ ∀ i column z, c.Shows w curves i column z → y ≤ z

/-- A value that shows, with no greater one. -/
def Greatest (c : Canvas) (w : Window) (curves : List Curve) (y : Float) : Prop :=
  (∃ i column, c.Shows w curves i column y) ∧ ∀ i column z, c.Shows w curves i column z → z ≤ y

/-- The sample of the `i`-th curve in a column is drawn in a row: it falls there, and the cell shows this
curve or one that is drawn after it. -/
def Drawn (c : Canvas) (w : Window) (curves : List Curve) (p : Plot) (row column i : Nat) : Prop :=
  c.Hits w curves p row column i ∧
    ∃ j, c.cellAt p row column = some (.curve j) ∧ (j = i ∨ Over curves j i)

theorem Shows.lt_columns (h : c.Shows w curves i column y) : column < c.columns := by
  obtain ⟨f, -, -, hlt, -⟩ := h
  exact hlt

theorem Shows.isFinite (h : c.Shows w curves i column y) : y.isFinite = true := by
  obtain ⟨f, -, -, -, -, hfinite⟩ := h
  exact hfinite

theorem Shows.unique (h : c.Shows w curves i column y) (h' : c.Shows w curves i column z) : y = z := by
  obtain ⟨f, hget, -, -, rfl, -⟩ := h
  obtain ⟨g, hget', -, -, rfl, -⟩ := h'
  cases Option.some.inj (hget.symm.trans hget')
  rfl

/-- A cell that samples fall into shows one of them. -/
theorem drawn_iff (hp : p.window = w ∧ p.curves = c.trace w curves)
    (h : c.Shows w curves i column y) : c.Drawn w curves p row column i ↔ c.rowOf p y = row := by
  constructor
  · rintro ⟨⟨z, hz, hrow⟩, -⟩
    rwa [h.unique hz]
  · rintro rfl
    have hrow := rowOf_lt c p y
    have hcolumn := h.lt_columns
    have hhits : c.Hits w curves p (c.rowOf p y) column i := ⟨y, h, rfl⟩
    refine ⟨hhits, ?_⟩
    obtain ⟨t, ht, -, hfalls⟩ := (hits_iff hp).mp hhits
    have hne := List.ne_nil_of_mem (List.mem_filter.mpr ⟨ht, hfalls⟩)
    obtain ⟨j, hj⟩ : ∃ j, c.cellAt p (c.rowOf p y) column = some (.curve j) := by
      rw [cellAt_eq hrow hcolumn, List.getLast?_eq_some_getLast hne]
      exact ⟨_, rfl⟩
    refine ⟨j, hj, ?_⟩
    by_cases hij : i = j
    · exact .inl hij.symm
    · exact .inr (((cellAt_eq_curve_iff hp hrow hcolumn).mp hj).2 i hhits hij)

/-- Two different values are enough for a plot between the extremes. -/
theorem exists_plot {j column' : Nat} (hy : c.Shows w curves i column y)
    (hz : c.Shows w curves j column' z) (hlt : y < z) :
    ∃ p, c.plot? w curves = some p ∧ Least c w curves p.lo ∧ Greatest c w curves p.hi ∧
      value p.lo < value p.hi := by
  have hle {x : Float} (hx : x.isFinite = true) : magnitude x ≤ infinity :=
    Nat.le_of_lt (isFinite_iff.mp hx)
  cases hp : c.plot? w curves with
  | none => exact absurd hy (plot?_eq_none.mp hp i column y)
  | some p =>
    obtain ⟨-, -, lo, hi, hwiden, ⟨k, l, hlo⟩, ⟨k', l', hhi⟩, hbounds⟩ := plot?_eq_some hp
    have hvalue : value lo < value hi := by
      have hlo' := (le_iff_of_isFinite hlo.isFinite hy.isFinite).mp (hbounds _ _ _ hy).1
      have hhi' := (le_iff_of_isFinite hz.isFinite hhi.isFinite).mp (hbounds _ _ _ hz).2
      have hlt' := (lt_iff (hle hy.isFinite) (hle hz.isFinite)).mp hlt
      omega
    rw [widen, beq_eq (hle hlo.isFinite) (hle hhi.isFinite), decide_eq_false (Int.ne_of_lt hvalue),
      if_neg Bool.false_ne_true, Prod.mk.injEq] at hwiden
    obtain ⟨rfl, rfl⟩ := hwiden
    exact ⟨p, rfl, ⟨⟨k, l, hlo⟩, fun i column x hx => (hbounds i column x hx).1⟩,
      ⟨⟨k', l', hhi⟩, fun i column x hx => (hbounds i column x hx).2⟩, hvalue⟩

theorem Least.isFinite (h : Least c w curves y) : y.isFinite = true := by
  obtain ⟨⟨i, column, h⟩, -⟩ := h
  exact h.isFinite

theorem Greatest.isFinite (h : Greatest c w curves y) : y.isFinite = true := by
  obtain ⟨⟨i, column, h⟩, -⟩ := h
  exact h.isFinite

theorem Least.value_eq (hy : Least c w curves y) (hz : Least c w curves z) : value y = value z := by
  have hle {y z : Float} (hy : Least c w curves y) (hz : Least c w curves z) : value y ≤ value z := by
    obtain ⟨i, column, h⟩ := hz.1
    exact (le_iff_of_isFinite hy.isFinite hz.isFinite).mp (hy.2 i column z h)
  exact Int.le_antisymm (hle hy hz) (hle hz hy)

theorem Greatest.value_eq (hy : Greatest c w curves y) (hz : Greatest c w curves z) :
    value y = value z := by
  have hle {y z : Float} (hy : Greatest c w curves y) (hz : Greatest c w curves z) :
      value z ≤ value y := by
    obtain ⟨i, column, h⟩ := hz.1
    exact (le_iff_of_isFinite hz.isFinite hy.isFinite).mp (hy.2 i column z h)
  exact Int.le_antisymm (hle hz hy) (hle hy hz)

theorem rows_le (h : c.height ≤ 2 ^ 64) : c.rows ≤ 2 ^ 64 := Nat.max_le.mpr ⟨h, by decide⟩

section rows

variable (hlo : Least c w curves p.lo) (hhi : Greatest c w curves p.hi)
  (hlt : value p.lo < value p.hi) (hheight : c.height ≤ 2 ^ 64)

include hlo hhi hlt hheight

theorem rowOf_least (h : Least c w curves v) : c.rowOf p v = c.rows - 1 := by
  rw [rowOf, scale_least h.isFinite hlo.isFinite hhi.isFinite hlt (h.value_eq hlo) (rows_le hheight)]
  rfl

theorem rowOf_greatest (h : Greatest c w curves v) (hfinite : (p.hi - p.lo).isFinite = true) :
    c.rowOf p v = c.rows - 1 - roundToNat (ofNat (c.rows - 1)) := by
  have hrows := two_le_rows c
  rw [rowOf, scale_greatest h.isFinite hlo.isFinite hhi.isFinite hlt (h.value_eq hhi) hfinite (by omega)
    (rows_le hheight)]
  omega

theorem rowOf_of_overflow (h : c.Shows w curves i column v)
    (hinfinite : ¬ (p.hi - p.lo).isFinite = true) : c.rowOf p v = c.rows - 1 := by
  have hle := (le_iff_of_isFinite hlo.isFinite h.isFinite).mp (hlo.2 i column v h)
  rw [rowOf, scale_of_overflow h.isFinite hlo.isFinite hhi.isFinite hle hlt hinfinite
    (rows_le hheight)]
  rfl

end rows

/-- **The extremes of a picture.** There is no picture exactly if no visible curve has a finite sample.
If two values differ, the bottom and the top of the scale are the least and the greatest one, and the
least is always drawn in the bottom row. The greatest is drawn in the top row exactly if the distance of
the two is a finite number and the number of rows less one is not rounded down, which it never is with up
to 53 bits. If the distance is not finite, all samples are drawn in the bottom row. The bound on the height
is that of a machine word. -/
theorem plot_extremes (hheight : c.height ≤ 2 ^ 64) :
    (c.render w curves = "nothing to plot in " ++ w.text ++ "\n" ↔
      ∀ i column y, ¬ c.Shows w curves i column y) ∧
    ∀ i column y j column' z, c.Shows w curves i column y → c.Shows w curves j column' z → y < z →
      ∃ p, c.plot? w curves = some p ∧ Least c w curves p.lo ∧ Greatest c w curves p.hi ∧
        (∀ i column v, c.Shows w curves i column v → Least c w curves v →
          c.Drawn w curves p (c.rows - 1) column i) ∧
        ((∀ i column v, c.Shows w curves i column v → Greatest c w curves v →
            c.Drawn w curves p 0 column i) ↔
          (p.hi - p.lo).isFinite = true ∧ c.rows - 1 ≤ roundToNat (ofNat (c.rows - 1))) ∧
        (c.rows ≤ 2 ^ 53 + 1 → c.rows - 1 ≤ roundToNat (ofNat (c.rows - 1))) ∧
        (¬ (p.hi - p.lo).isFinite = true → ∀ i column v, c.Shows w curves i column v →
          c.Drawn w curves p (c.rows - 1) column i) := by
  have hrows := two_le_rows c
  refine ⟨render_eq_emptyText_iff.trans plot?_eq_none, fun i column y j column' z hy hz hyz => ?_⟩
  obtain ⟨p, hp, hlo, hhi, hlt⟩ := exists_plot hy hz hyz
  obtain ⟨hwindow, hcurves, -⟩ := plot?_eq_some hp
  have hdrawn {i column row : Nat} {v : Float} (h : c.Shows w curves i column v) :
      c.Drawn w curves p row column i ↔ c.rowOf p v = row := drawn_iff ⟨hwindow, hcurves⟩ h
  refine ⟨p, hp, hlo, hhi, fun i column v h hv => ?_, ⟨fun htop => ?_, ?_⟩, fun hle => ?_,
    fun hinfinite i column v h => ?_⟩
  · rw [hdrawn h]
    exact rowOf_least hlo hhi hlt hheight hv
  · obtain ⟨⟨i, column, h⟩, hmax⟩ := hhi
    have hrow := (hdrawn h).mp (htop i column p.hi h ⟨⟨i, column, h⟩, hmax⟩)
    have hhi : Greatest c w curves p.hi := ⟨⟨i, column, h⟩, hmax⟩
    by_cases hfinite : (p.hi - p.lo).isFinite = true
    · rw [rowOf_greatest hlo hhi hlt hheight hhi hfinite] at hrow
      exact ⟨hfinite, by omega⟩
    · rw [rowOf_of_overflow hlo hhi hlt hheight h hfinite] at hrow
      omega
  · rintro ⟨hfinite, hround⟩ i column v h hv
    rw [hdrawn h, rowOf_greatest hlo hhi hlt hheight hv hfinite]
    omega
  · rw [roundToNat_ofNat (by omega)]
  · rw [hdrawn h]
    exact rowOf_of_overflow hlo hhi hlt hheight h hinfinite

/-- Two lines cross: the ends of both are the extremes, and each is drawn in its corner. -/
theorem plot_extremes_cross :
    let c : Canvas := ⟨5, 5, false⟩
    let w : Window := ⟨-2, 2⟩
    let curves : List Curve := [.new (.nth 0) ⟨.var, .hyphen⟩, .new (.nth 1) ⟨.neg .var, .hyphen⟩]
    ∃ p, c.plot? w curves = some p ∧ Least c w curves (-2) ∧ Greatest c w curves 2 ∧
      c.Drawn w curves p 4 0 0 ∧ c.Drawn w curves p 0 4 0 ∧ c.Drawn w curves p 0 0 1 := by
  intro c w curves
  have hleft : c.Shows w curves 0 0 (-2) :=
    ⟨_, rfl, rfl, by decide, by decide +kernel, by decide +kernel⟩
  have hright : c.Shows w curves 0 4 2 :=
    ⟨_, rfl, rfl, by decide, by decide +kernel, by decide +kernel⟩
  have hother : c.Shows w curves 1 0 2 :=
    ⟨_, rfl, rfl, by decide, by decide +kernel, by decide +kernel⟩
  have hends : (c.plot? w curves).map (fun p => (p.lo, p.hi)) = some (-2, 2) := by decide +kernel
  obtain ⟨-, hextremes⟩ := @plot_extremes c w curves (by decide)
  obtain ⟨p, hp, hlo, hhi, hbottom, htop, hrows, -⟩ :=
    hextremes 0 0 (-2) 0 4 2 hleft hright (by decide +kernel)
  rw [hp, Option.map_some, Option.some_inj, Prod.mk.injEq] at hends
  rw [hends.1] at hlo
  rw [hends.2] at hhi
  have hdistance : (p.hi - p.lo).isFinite = true := by
    rw [hends.1, hends.2]
    decide +kernel
  have hdrawn := htop.mpr ⟨hdistance, hrows (by decide)⟩
  exact ⟨p, hp, hlo, hhi, hbottom 0 0 (-2) hleft hlo, hdrawn 0 4 2 hright hhi,
    hdrawn 1 0 2 hother hhi⟩

/-- Two constants of opposite signs whose distance is no finite number: the greater one is drawn in the
bottom row. -/
theorem greatest_not_drawn_overflow :
    let c : Canvas := ⟨2, 2, false⟩
    let w : Window := ⟨1, 2⟩
    let curves : List Curve :=
      [.new (.nth 0) ⟨.number 1.5e308, .hyphen⟩, .new (.nth 1) ⟨.neg (.number 1.5e308), .hyphen⟩]
    w.check = .ok () ∧ c.Shows w curves 1 0 (-1.5e308) ∧ c.Shows w curves 0 0 1.5e308 ∧
      Greatest c w curves 1.5e308 ∧ ∃ p, c.plot? w curves = some p ∧ ¬ c.Drawn w curves p 0 0 0 := by
  intro c w curves
  have hless : c.Shows w curves 1 0 (-1.5e308) :=
    ⟨_, rfl, rfl, by decide, by decide +kernel, by decide +kernel⟩
  have hgreater : c.Shows w curves 0 0 1.5e308 :=
    ⟨_, rfl, rfl, by decide, by decide +kernel, by decide +kernel⟩
  have hplot : (c.plot? w curves).map (fun p => (p.hi, c.rowOf p 1.5e308)) = some (1.5e308, 1) := by
    decide +kernel
  obtain ⟨p, hp, -, hhi, -⟩ := exists_plot hless hgreater (by decide +kernel)
  obtain ⟨hwindow, hcurves, -⟩ := plot?_eq_some hp
  rw [hp, Option.map_some, Option.some_inj, Prod.mk.injEq] at hplot
  rw [hplot.1] at hhi
  refine ⟨by decide +kernel, hless, hgreater, hhi, p, hp, ?_⟩
  rw [drawn_iff ⟨hwindow, hcurves⟩ hgreater, hplot.2]
  decide

end CurvePlot.Canvas
