import CurvePlot.Proofs.Canvas.Traces

/-! The cells of a picture.

A column is painted sample after sample, so that a cell shows the last curve that falls into it
(`column_get?`). The order of drawing is that of the layers, and within a layer that of the curves
(`pairwise_drawingOrder`); from this `picture_cells` says of each cell what it shows. -/

namespace CurvePlot

/-- The place of a mark in the order of drawing. -/
def Highlight.layer : Highlight → Nat
  | .obscured => 0
  | .none => 1
  | .highlighted => 2

/-- A traced curve is drawn before another one. -/
def Traced.Before (t u : Traced) : Prop :=
  t.curve.highlight.layer < u.curve.highlight.layer ∨
    t.curve.highlight.layer = u.curve.highlight.layer ∧ t.index < u.index

theorem Traced.Before.asymm {t u : Traced} (h : t.Before u) : ¬ u.Before t := by
  rw [Traced.Before] at *
  omega

namespace Canvas

variable {c : Canvas} {w : Window} {curves : List Curve} {p : Plot} {t u : Traced} {ts : List Traced}
  {i j row column : Nat}

/-- The sample of the `i`-th curve in a column falls into a row. -/
def Hits (c : Canvas) (w : Window) (curves : List Curve) (p : Plot) (row column i : Nat) : Prop :=
  ∃ y, c.Shows w curves i column y ∧ c.rowOf p y = row

/-- The `i`-th curve is drawn after the `j`-th one. -/
def Over (curves : List Curve) (i j : Nat) : Prop :=
  ∃ f g, curves[i]? = some f ∧ curves[j]? = some g ∧
    (g.highlight.layer < f.highlight.layer ∨ g.highlight.layer = f.highlight.layer ∧ j < i)

/-- The `i`-th curve is the last one that falls into a cell. -/
def Topmost (c : Canvas) (w : Window) (curves : List Curve) (p : Plot) (row column i : Nat) : Prop :=
  c.Hits w curves p row column i ∧ ∀ j, c.Hits w curves p row column j → j ≠ i → Over curves i j

/-- What stands in a row and a column of the picture. -/
def cellAt (c : Canvas) (p : Plot) (row column : Nat) : Option Cell :=
  (c.picture p)[column]?.bind (·[row]?)

/-! ## Scaling -/

theorem scale_lt (v lo hi : Float) {cells : Nat} (h : 0 < cells) : scale v lo hi cells < cells := by
  rw [scale]
  split <;> omega

theorem rowOf_lt (c : Canvas) (p : Plot) (v : Float) : c.rowOf p v < c.rows := by
  have hrows := two_le_rows c
  rw [rowOf]
  omega

/-! ## The order of drawing -/

theorem mem_drawingOrder : t ∈ drawingOrder ts ↔ t ∈ ts := by
  simp only [drawingOrder, List.mem_append, List.mem_filter, decide_eq_true_eq]
  cases t.curve.highlight <;> simp

theorem pairwise_drawingOrder (h : ts.Pairwise (·.index < ·.index)) :
    (drawingOrder ts).Pairwise Traced.Before := by
  have hmark {k : Highlight} {t : Traced} (ht : t ∈ ts.filter fun t => t.curve.highlight = k) :
      t.curve.highlight = k := of_decide_eq_true (List.mem_filter.mp ht).2
  have hlayer (k : Highlight) : (ts.filter fun t => t.curve.highlight = k).Pairwise Traced.Before := by
    refine (h.filter _).imp_of_mem fun ht hu hlt => .inr ⟨?_, hlt⟩
    rw [hmark ht, hmark hu]
  have hbefore {k l : Highlight} (hkl : k.layer < l.layer) :
      ∀ t ∈ ts.filter fun t => t.curve.highlight = k,
        ∀ u ∈ ts.filter fun t => t.curve.highlight = l, t.Before u := by
    intro t ht u hu
    left
    rwa [hmark ht, hmark hu]
  rw [drawingOrder, List.pairwise_append, List.pairwise_append]
  refine ⟨⟨hlayer _, hlayer _, hbefore (by decide)⟩, hlayer _, fun t ht u hu => ?_⟩
  rcases List.mem_append.mp ht with ht | ht
  · exact hbefore (by decide) t ht u hu
  · exact hbefore (by decide) t ht u hu

/-! ## Painting -/

/-- The sample of a traced curve falls into a cell. -/
def fallsInto (c : Canvas) (p : Plot) (row column : Nat) (t : Traced) : Bool :=
  match t.samples[column]? with
  | some s => s.y.isFinite && c.rowOf p s.y == row
  | none => false

theorem size_paint (c : Canvas) (p : Plot) (column : Nat) (cells : Array Cell) (t : Traced) :
    (c.paint p column cells t).size = cells.size := by
  rw [paint]
  split
  · split
    · exact Array.size_setIfInBounds
    · rfl
  · rfl

theorem paint_get? {cells : Array Cell} (hsize : cells.size = c.rows) :
    (c.paint p column cells t)[row]? =
      if c.fallsInto p row column t then some (.curve t.index) else cells[row]? := by
  rw [paint, fallsInto]
  cases t.samples[column]? with
  | none => rfl
  | some s =>
    have hlt := rowOf_lt c p s.y
    by_cases hfinite : s.y.isFinite = true
    · simp only [hfinite, if_true, Bool.true_and, beq_iff_eq, Array.getElem?_setIfInBounds]
      split
      · rw [if_pos (by omega)]
      · rfl
    · simp only [hfinite, Bool.false_eq_true, if_false, Bool.false_and]

/-- The last traced curve that falls into a cell shows there. -/
theorem foldl_paint_get? {cells : Array Cell} (hsize : cells.size = c.rows) :
    (ts.foldl (c.paint p column) cells)[row]? =
      ((ts.filter (c.fallsInto p row column)).getLast?.map fun t => .curve t.index).or cells[row]? := by
  induction ts generalizing cells with
  | nil => rfl
  | cons t ts ih =>
    rw [List.foldl_cons, ih ((size_paint c p column cells t).trans hsize), paint_get? hsize,
      List.filter_cons]
    split
    · rw [List.getLast?_cons]
      cases (ts.filter (c.fallsInto p row column)).getLast? <;> rfl
    · rfl

theorem size_foldl_paint (cells : Array Cell) :
    (ts.foldl (c.paint p column) cells).size = cells.size := by
  induction ts generalizing cells with
  | nil => rfl
  | cons t ts ih => rw [List.foldl_cons, ih, size_paint]

/-! ## The picture -/

theorem size_column (c : Canvas) (p : Plot) (column : Nat) : (c.column p column).size = c.rows := by
  rw [Canvas.column, size_foldl_paint, Array.size_map, Array.size_range]

theorem cellAt_eq (hrow : row < c.rows) (hcolumn : column < c.columns) :
    c.cellAt p row column =
      (((drawingOrder p.curves).filter (c.fallsInto p row column)).getLast?.map
        fun t => .curve t.index).or
          (some (axisCell (c.horizontalAxis p) (c.verticalAxis p) row column)) := by
  have haxes : ((Array.range c.rows).map fun row =>
      axisCell (c.horizontalAxis p) (c.verticalAxis p) row column)[row]? =
        some (axisCell (c.horizontalAxis p) (c.verticalAxis p) row column) := by
    rw [Array.getElem?_map, Array.getElem?_range, if_pos hrow]
    rfl
  rw [cellAt, picture, List.getElem?_map, List.getElem?_range hcolumn, ← haxes]
  refine foldl_paint_get? ?_
  rw [Array.size_map, Array.size_range]

/-- The traced curves that fall into a cell are those that do so in the list of curves. -/
theorem hits_iff (hp : p.window = w ∧ p.curves = c.trace w curves) :
    c.Hits w curves p row column i ↔
      ∃ t ∈ drawingOrder p.curves, t.index = i ∧ c.fallsInto p row column t := by
  obtain ⟨-, hcurves⟩ := hp
  simp only [mem_drawingOrder, hcurves]
  constructor
  · rintro ⟨y, ⟨f, hget, hhidden, hlt, rfl, hfinite⟩, hrow⟩
    refine ⟨c.traced w f i, mem_trace.mpr ⟨f, hget, hhidden, rfl⟩, rfl, ?_⟩
    rw [fallsInto, samples_get?, if_pos hlt]
    simp only [hfinite, hrow, beq_self_eq_true, Bool.and_self]
  · rintro ⟨t, ht, rfl, hfalls⟩
    obtain ⟨f, hget, hhidden, heq⟩ := mem_trace.mp ht
    rw [fallsInto, heq, samples_get?] at hfalls
    split at hfalls
    · next hsome =>
      split at hsome
      · next hlt =>
        cases hsome
        simp only [Bool.and_eq_true, beq_iff_eq] at hfalls
        exact ⟨_, ⟨f, hget, hhidden, hlt, rfl, hfalls.1⟩, hfalls.2⟩
      · cases hsome
    · cases hfalls

theorem eq_of_index (ht : t ∈ c.trace w curves) (hu : u ∈ c.trace w curves)
    (h : t.index = u.index) : t = u := by
  obtain ⟨f, hget, -, heq⟩ := mem_trace.mp ht
  obtain ⟨g, hget', -, heq'⟩ := mem_trace.mp hu
  rw [h, hget', Option.some_inj] at hget
  rw [heq, heq', h, hget]

theorem before_iff (ht : t ∈ c.trace w curves) (hu : u ∈ c.trace w curves) :
    t.Before u ↔ Over curves u.index t.index := by
  obtain ⟨f, hget, -, heq⟩ := mem_trace.mp ht
  obtain ⟨g, hget', -, heq'⟩ := mem_trace.mp hu
  rw [Traced.Before, heq, heq']
  constructor
  · exact fun h => ⟨g, f, hget', hget, h⟩
  · rintro ⟨g', f', hg', hf', h⟩
    cases Option.some.inj (hget'.symm.trans hg')
    cases Option.some.inj (hget.symm.trans hf')
    exact h

/-- The last one of curves in the order of drawing is the one that comes after all others. -/
theorem getLast?_eq_some (h : ts.Pairwise Traced.Before) :
    ts.getLast? = some t ↔ t ∈ ts ∧ ∀ u ∈ ts, u ≠ t → u.Before t := by
  have hlast {t : Traced} (ht : ts.getLast? = some t) :
      t ∈ ts ∧ ∀ u ∈ ts, u ≠ t → u.Before t := by
    obtain ⟨us, rfl⟩ := List.getLast?_eq_some_iff.mp ht
    refine ⟨by simp, fun u hu hne => ?_⟩
    obtain ⟨-, -, hbefore⟩ := List.pairwise_append.mp h
    rcases List.mem_append.mp hu with hu | hu
    · exact hbefore u hu t List.mem_cons_self
    · exact absurd (List.mem_singleton.mp hu) hne
  refine ⟨hlast, fun ⟨hmem, hall⟩ => ?_⟩
  cases hget : ts.getLast? with
  | none =>
    rw [List.getLast?_eq_none_iff] at hget
    rw [hget] at hmem
    cases hmem
  | some u =>
    obtain ⟨hu, hbefore⟩ := hlast hget
    by_cases heq : u = t
    · rw [heq]
    · exact absurd (hbefore t hmem (Ne.symm heq)) (hall u hu heq).asymm

theorem axisCell_ne_curve (h v : Option Nat) (row column i : Nat) :
    axisCell h v row column ≠ .curve i := by
  rw [axisCell]
  split <;> nofun

/-- A cell shows the topmost one of the curves that fall into it. -/
theorem cellAt_eq_curve_iff (hp : p.window = w ∧ p.curves = c.trace w curves) (hrow : row < c.rows)
    (hcolumn : column < c.columns) :
    c.cellAt p row column = some (.curve i) ↔ c.Topmost w curves p row column i := by
  have hpairwise :
      ((drawingOrder p.curves).filter (c.fallsInto p row column)).Pairwise Traced.Before := by
    rw [hp.2]
    exact (pairwise_drawingOrder (pairwise_trace c w curves)).filter _
  have hmem {t : Traced} (ht : t ∈ (drawingOrder p.curves).filter (c.fallsInto p row column)) :
      t ∈ c.trace w curves := by
    rw [← hp.2]
    exact mem_drawingOrder.mp (List.mem_filter.mp ht).1
  have hhits {i : Nat} : c.Hits w curves p row column i ↔
      ∃ t ∈ (drawingOrder p.curves).filter (c.fallsInto p row column), t.index = i := by
    rw [hits_iff hp]
    constructor
    · rintro ⟨t, ht, hindex, hfalls⟩
      exact ⟨t, List.mem_filter.mpr ⟨ht, hfalls⟩, hindex⟩
    · rintro ⟨t, ht, hindex⟩
      obtain ⟨ht, hfalls⟩ := List.mem_filter.mp ht
      exact ⟨t, ht, hindex, hfalls⟩
  rw [cellAt_eq hrow hcolumn]
  generalize (drawingOrder p.curves).filter (c.fallsInto p row column) = ts at *
  have hcell : (((ts.getLast?.map fun t => Cell.curve t.index).or
      (some (axisCell (c.horizontalAxis p) (c.verticalAxis p) row column))) = some (.curve i)) ↔
        ∃ t, ts.getLast? = some t ∧ t.index = i := by
    cases ts.getLast? with
    | none => simp [axisCell_ne_curve]
    | some t => simp
  rw [hcell]
  constructor
  · rintro ⟨t, ht, rfl⟩
    obtain ⟨ht, hall⟩ := (getLast?_eq_some hpairwise).mp ht
    refine ⟨hhits.mpr ⟨t, ht, rfl⟩, fun j hj hne => ?_⟩
    obtain ⟨u, hu, rfl⟩ := hhits.mp hj
    refine (before_iff (hmem hu) (hmem ht)).mp (hall u hu ?_)
    rintro rfl
    exact hne rfl
  · rintro ⟨hi, hall⟩
    obtain ⟨t, ht, rfl⟩ := hhits.mp hi
    refine ⟨t, (getLast?_eq_some hpairwise).mpr ⟨ht, fun u hu hne => ?_⟩, rfl⟩
    refine (before_iff (hmem hu) (hmem ht)).mpr (hall u.index (hhits.mpr ⟨u, hu, rfl⟩) fun h => ?_)
    exact hne (eq_of_index (hmem hu) (hmem ht) h)

/-! ## The axes -/

/-- The row of the value `0`, if that is between the bottom and the top. -/
def OnHorizontal (c : Canvas) (p : Plot) (row : Nat) : Prop :=
  (p.lo ≤ 0 ∧ 0 ≤ p.hi) ∧ row = c.rowOf p 0

/-- The column of the place `0`, if that is in the window. -/
def OnVertical (c : Canvas) (w : Window) (column : Nat) : Prop :=
  (w.left ≤ 0 ∧ 0 ≤ w.right) ∧ column = scale 0 w.left w.right c.columns

instance : Decidable (c.OnHorizontal p row) := inferInstanceAs (Decidable (_ ∧ _))

instance : Decidable (c.OnVertical w column) := inferInstanceAs (Decidable (_ ∧ _))

theorem horizontalAxis_eq_some : c.horizontalAxis p = some row ↔ c.OnHorizontal p row := by
  rw [horizontalAxis, OnHorizontal]
  split
  · next h => rw [Option.some_inj, and_iff_right h, eq_comm]
  · next h => exact ⟨nofun, fun ⟨h', _⟩ => absurd h' h⟩

theorem verticalAxis_eq_some : c.verticalAxis p = some column ↔ c.OnVertical p.window column := by
  rw [verticalAxis, OnVertical]
  split
  · next h => rw [Option.some_inj, and_iff_right h, eq_comm]
  · next h => exact ⟨nofun, fun ⟨h', _⟩ => absurd h' h⟩

/-- Where no curve is, a cell shows the axes. -/
theorem cellAt_of_no_hit (hp : p.window = w ∧ p.curves = c.trace w curves) (hrow : row < c.rows)
    (hcolumn : column < c.columns) (h : ∀ i, ¬ c.Hits w curves p row column i) :
    c.cellAt p row column = some
      (if c.OnHorizontal p row then if c.OnVertical w column then .axis '+' else .axis '-'
        else if c.OnVertical w column then .axis '|' else .blank) := by
  have hnone : (drawingOrder p.curves).filter (c.fallsInto p row column) = [] := by
    refine List.filter_eq_nil_iff.mpr fun t ht hfalls => ?_
    exact h t.index ((hits_iff hp).mpr ⟨t, ht, rfl, hfalls⟩)
  rw [cellAt_eq hrow hcolumn, hnone, axisCell]
  simp only [horizontalAxis_eq_some, verticalAxis_eq_some, hp.1]
  by_cases hh : c.OnHorizontal p row <;> by_cases hv : c.OnVertical w column <;>
    simp [hh, hv]

/-- **The cells of a picture.** A picture has its size, and no value leads out of it. A cell shows the
topmost one of the visible curves with a finite sample that falls into it, the layer of a curve counting
before its place in the list. A cell that no curve falls into shows the axes. They are drawn where `0` is
between the ends of the window, and between the extremes of the samples, which are moved apart if they
are equal. -/
theorem picture_cells (hp : c.plot? w curves = some p) :
    ((c.picture p).length = max c.width 2 ∧ ∀ cells ∈ c.picture p, cells.size = max c.height 2) ∧
      ((∀ v lo hi, scale v lo hi c.rows < c.rows ∧ scale v lo hi c.columns < c.columns) ∧
        (∀ v, c.rowOf p v < c.rows) ∧ ∀ t ∈ p.curves, t.samples.size = c.columns) ∧
      (∀ row < c.rows, ∀ column < c.columns,
        (∀ i, c.cellAt p row column = some (.curve i) ↔ c.Topmost w curves p row column i) ∧
          ((∀ i, ¬ c.Hits w curves p row column i) → c.cellAt p row column = some
            (if c.OnHorizontal p row then if c.OnVertical w column then .axis '+' else .axis '-'
              else if c.OnVertical w column then .axis '|' else .blank))) ∧
      ∃ lo hi, (p.lo, p.hi) = (if lo == hi then (lo - 1, hi + 1) else (lo, hi)) ∧
        (∃ i column, c.Shows w curves i column lo) ∧ (∃ i column, c.Shows w curves i column hi) ∧
          ∀ i column y, c.Shows w curves i column y → lo ≤ y ∧ y ≤ hi := by
  have hrows := two_le_rows c
  have hcolumns := two_le_columns c
  obtain ⟨hwindow, hcurves, hextremes⟩ := plot?_eq_some hp
  refine ⟨⟨?_, fun cells hcells => ?_⟩, ⟨fun v lo hi => ⟨?_, ?_⟩, rowOf_lt c p, fun t ht => ?_⟩,
    fun row hrow column hcolumn => ⟨fun i => ?_, fun hnone => ?_⟩, hextremes⟩
  · rw [picture, List.length_map, List.length_range, columns]
  · obtain ⟨column, -, rfl⟩ := List.mem_map.mp hcells
    exact size_column c p column
  · exact scale_lt v lo hi (by omega)
  · exact scale_lt v lo hi (by omega)
  · rw [hcurves] at ht
    obtain ⟨f, -, -, heq⟩ := mem_trace.mp ht
    rw [heq, size_samples]
  · exact cellAt_eq_curve_iff ⟨hwindow, hcurves⟩ hrow hcolumn
  · exact cellAt_of_no_hit ⟨hwindow, hcurves⟩ hrow hcolumn hnone

/-- Two lines cross where the axes do, and the highlighted one shows although it comes first. -/
theorem picture_cells_cross :
    let c : Canvas := ⟨5, 5, false⟩
    let w : Window := ⟨-2, 2⟩
    let curves : List Curve :=
      [{ Curve.new (.nth 0) ⟨.var, .hyphen⟩ with highlight := .highlighted },
        { Curve.new (.nth 1) ⟨.neg .var, .hyphen⟩ with highlight := .obscured }]
    ∃ p, c.plot? w curves = some p ∧ (c.picture p).length = 5 ∧ c.Topmost w curves p 2 2 0 ∧
      c.Topmost w curves p 4 4 1 ∧ c.cellAt p 4 2 = some (.axis '|') := by
  intro c w curves
  have hsome : (c.plot? w curves).isSome = true := by decide +kernel
  obtain ⟨p, hp⟩ := Option.isSome_iff_exists.mp hsome
  have hcells : (c.plot? w curves).map (fun p => [c.cellAt p 2 2, c.cellAt p 4 4, c.cellAt p 4 2]) =
      some [some (.curve 0), some (.curve 1), some (.axis '|')] := by decide +kernel
  rw [hp, Option.map_some, Option.some_inj] at hcells
  simp only [List.cons.injEq, and_true] at hcells
  obtain ⟨hcenter, hcorner, haxis⟩ := hcells
  obtain ⟨⟨hlength, -⟩, -, hcells, -⟩ := picture_cells hp
  refine ⟨p, hp, hlength, ?_, ?_, haxis⟩
  · exact ((hcells 2 (by decide) 2 (by decide)).1 0).mp hcenter
  · exact ((hcells 4 (by decide) 4 (by decide)).1 1).mp hcorner

end Canvas

end CurvePlot
