import CurvePlot.Canvas
import CurvePlot.Proofs.Binary64.Order

/-! What there is to draw.

`Shows` is a visible, finite sample of a curve, said of the list of curves alone. The traced curves are
the visible ones in their order (`trace_get?`), with one sample for each column, and the values at the
bottom and the top of a plot are the extremes of all that shows (`plot?_eq_some`). -/

namespace CurvePlot.Canvas

open Binary64

variable {c : Canvas} {w : Window} {curves : List Curve} {p : Plot} {t : Traced} {ys : List Float}
  {lo hi y : Float} {i column : Nat}

/-- The sampling with one place for each column. -/
def sampling (c : Canvas) (w : Window) : Sampling := ⟨w, c.columns - 1⟩

/-- The `i`-th curve is visible and has the finite value `y` in a column. -/
def Shows (c : Canvas) (w : Window) (curves : List Curve) (i column : Nat) (y : Float) : Prop :=
  ∃ f, curves[i]? = some f ∧ f.hidden = false ∧ column < c.columns ∧
    f.formula.eval ((c.sampling w).x column) = y ∧ y.isFinite = true

/-! ## The traced curves -/

theorem two_le_columns (c : Canvas) : 2 ≤ c.columns := Nat.le_max_right _ _

theorem two_le_rows (c : Canvas) : 2 ≤ c.rows := Nat.le_max_right _ _

/-- A curve with its place and its samples. -/
def traced (c : Canvas) (w : Window) (f : Curve) (i : Nat) : Traced :=
  ⟨i, f, ((c.sampling w).sample f.formula).toArray⟩

theorem size_samples (c : Canvas) (w : Window) (f : Curve) (i : Nat) :
    (c.traced w f i).samples.size = c.columns := by
  have hcolumns := two_le_columns c
  simp only [traced, List.size_toArray, Sampling.sample, Sampling.abscissae, List.length_map,
    List.length_range, sampling]
  omega

theorem samples_get? (c : Canvas) (w : Window) (f : Curve) (i column : Nat) :
    (c.traced w f i).samples[column]? =
      if column < c.columns then
        some ⟨(c.sampling w).x column, f.formula.eval ((c.sampling w).x column)⟩
      else none := by
  have hcolumns := two_le_columns c
  have hsteps : (c.sampling w).steps + 1 = c.columns := Nat.sub_add_cancel (by omega)
  simp only [traced, List.getElem?_toArray, Sampling.sample, Sampling.abscissae, List.getElem?_map,
    hsteps]
  split
  · next hlt => rw [List.getElem?_range hlt]; rfl
  · next hge => rw [List.getElem?_eq_none (by rw [List.length_range]; omega)]; rfl

theorem mem_trace : t ∈ c.trace w curves ↔
    ∃ f, curves[t.index]? = some f ∧ f.hidden = false ∧ t = c.traced w f t.index := by
  rw [trace, List.mem_filterMap]
  constructor
  · rintro ⟨⟨f, i⟩, hmem, hsome⟩
    rw [List.mk_mem_zipIdx_iff_getElem?] at hmem
    cases hhidden : f.hidden with
    | true => simp [hhidden] at hsome
    | false =>
      simp only [hhidden, Bool.false_eq_true, if_false, Option.some.injEq] at hsome
      subst hsome
      exact ⟨f, hmem, hhidden, rfl⟩
  · rintro ⟨f, hget, hhidden, ht⟩
    refine ⟨(f, t.index), List.mk_mem_zipIdx_iff_getElem?.mpr hget, ?_⟩
    simp only [hhidden, Bool.false_eq_true, if_false, Option.some.injEq]
    exact ht.symm

theorem pairwise_trace (c : Canvas) (w : Window) (curves : List Curve) :
    (c.trace w curves).Pairwise (·.index < ·.index) := by
  have hindices : curves.zipIdx.Pairwise (·.2 < ·.2) := by
    rw [← List.pairwise_map, List.zipIdx_map_snd]
    exact List.pairwise_lt_range'
  refine hindices.filterMap _ ?_
  rintro ⟨f, i⟩ ⟨g, j⟩ hlt t ht t' ht'
  dsimp only at ht ht'
  split at ht
  · cases ht
  · split at ht'
    · cases ht'
    · cases ht
      cases ht'
      exact hlt

/-! ## The extremes -/

/-- The least and the greatest of some values. -/
structure Extreme (ys : List Float) (lo hi : Float) : Prop where
  lo_mem : lo ∈ ys
  hi_mem : hi ∈ ys
  bounds : ∀ y ∈ ys, lo ≤ y ∧ y ≤ hi

theorem Extreme.step (h : Extreme ys lo hi) (hys : ∀ x ∈ ys ++ [y], x.isFinite = true) :
    Extreme (ys ++ [y]) (if y ≤ lo then y else lo) (if hi ≤ y then y else hi) := by
  have hy := hys y (by simp)
  have hlo := hys lo (List.mem_append_left _ h.lo_mem)
  have hhi := hys hi (List.mem_append_left _ h.hi_mem)
  have hmin : value (if y ≤ lo then y else lo) = min (value y) (value lo) := by
    split <;> next hle => rw [le_iff_of_isFinite hy hlo] at hle; omega
  have hmax : value (if hi ≤ y then y else hi) = max (value hi) (value y) := by
    split <;> next hle => rw [le_iff_of_isFinite hhi hy] at hle; omega
  have hlo_mem : (if y ≤ lo then y else lo) ∈ ys ++ [y] := by split <;> simp [h.lo_mem]
  have hhi_mem : (if hi ≤ y then y else hi) ∈ ys ++ [y] := by split <;> simp [h.hi_mem]
  refine ⟨hlo_mem, hhi_mem, fun x hx => ?_⟩
  have hx' := hys x hx
  rw [le_iff_of_isFinite (hys _ hlo_mem) hx', le_iff_of_isFinite hx' (hys _ hhi_mem), hmin, hmax]
  rcases List.mem_append.mp hx with hx | hx
  · obtain ⟨hle, hge⟩ := h.bounds x hx
    rw [le_iff_of_isFinite hlo hx'] at hle
    rw [le_iff_of_isFinite hx' hhi] at hge
    omega
  · rw [List.mem_singleton.mp hx]
    omega

theorem extreme_foldl {zs : List Float} (h : Extreme ys lo hi)
    (hfinite : ∀ x ∈ ys ++ zs, x.isFinite = true) :
    ∃ lo' hi', zs.foldl (fun (lo, hi) y => (if y ≤ lo then y else lo, if hi ≤ y then y else hi))
        (lo, hi) = (lo', hi') ∧ Extreme (ys ++ zs) lo' hi' := by
  induction zs generalizing ys lo hi with
  | nil => exact ⟨lo, hi, rfl, by rwa [List.append_nil]⟩
  | cons z zs ih =>
    rw [← List.singleton_append, ← List.append_assoc] at hfinite ⊢
    exact ih (h.step fun x hx => hfinite x (List.mem_append_left _ hx)) hfinite

theorem extreme_of_extremes (hys : ∀ y ∈ ys, y.isFinite = true) (h : extremes ys = some (lo, hi)) :
    Extreme ys lo hi := by
  cases ys with
  | nil => cases h
  | cons y ys =>
    have hy := hys y List.mem_cons_self
    have hfirst : Extreme [y] y y := by
      refine ⟨List.mem_cons_self, List.mem_cons_self, fun x hx => ?_⟩
      rw [List.mem_singleton.mp hx, le_iff_of_isFinite hy hy]
      exact ⟨Int.le_refl _, Int.le_refl _⟩
    obtain ⟨lo', hi', hfold, hextreme⟩ := extreme_foldl hfirst hys
    rw [extremes, hfold] at h
    cases h
    exact hextreme

/-! ## The plot -/

theorem mem_values :
    y ∈ ((c.trace w curves).flatMap fun t => t.samples.toList.map Sample.y).filter Float.isFinite ↔
      ∃ i column, c.Shows w curves i column y := by
  rw [List.mem_filter, List.mem_flatMap]
  constructor
  · rintro ⟨⟨t, ht, hy⟩, hfinite⟩
    obtain ⟨f, hget, hhidden, heq⟩ := mem_trace.mp ht
    obtain ⟨s, hs, rfl⟩ := List.mem_map.mp hy
    obtain ⟨column, hcolumn⟩ := Array.getElem?_of_mem (Array.mem_toList_iff.mp hs)
    rw [heq, samples_get?] at hcolumn
    split at hcolumn
    · next hlt =>
      cases hcolumn
      exact ⟨t.index, column, f, hget, hhidden, hlt, rfl, hfinite⟩
    · cases hcolumn
  · rintro ⟨i, column, f, hget, hhidden, hlt, rfl, hfinite⟩
    have hmem : c.traced w f i ∈ c.trace w curves := mem_trace.mpr ⟨f, hget, hhidden, rfl⟩
    refine ⟨⟨c.traced w f i, hmem, List.mem_map.mpr ?_⟩, hfinite⟩
    have hsample := samples_get? c w f i column
    rw [if_pos hlt] at hsample
    exact ⟨_, Array.mem_toList_iff.mpr (Array.mem_of_getElem? hsample), rfl⟩

theorem plot?_eq_some (h : c.plot? w curves = some p) :
    p.window = w ∧ p.curves = c.trace w curves ∧ ∃ lo hi, (p.lo, p.hi) = widen lo hi ∧
      (∃ i column, c.Shows w curves i column lo) ∧ (∃ i column, c.Shows w curves i column hi) ∧
        ∀ i column y, c.Shows w curves i column y → lo ≤ y ∧ y ≤ hi := by
  rw [plot?, Option.map_eq_some_iff] at h
  obtain ⟨⟨lo, hi⟩, hextremes, rfl⟩ := h
  obtain ⟨hlo, hhi, hbounds⟩ :=
    extreme_of_extremes (fun y hy => (List.mem_filter.mp hy).2) hextremes
  refine ⟨rfl, rfl, lo, hi, rfl, mem_values.mp hlo, mem_values.mp hhi, fun i column y hy => ?_⟩
  exact hbounds y (mem_values.mpr ⟨i, column, hy⟩)

end CurvePlot.Canvas
