import CurvePlot.Proofs.Canvas.Rows
import CurvePlot.Proofs.Formula.Canonical

/-! A picture depends on the visible curves alone.

Of a traced curve a picture uses how it is drawn and its samples (`Look`), but not its number: two plots
with the same scale and the same looks are written alike (`line_alike`). The looks of the traced
curves are those of the visible ones (`map_look_trace`), so that curves that are hidden can be left out
or put in anywhere (`render_visible`). -/

namespace CurvePlot

/-- How a traced curve is drawn, and its samples. -/
structure Look where
  color : Color
  highlight : Highlight
  samples : Array Sample

def Traced.look (t : Traced) : Look := ⟨t.curve.color, t.curve.highlight, t.samples⟩

/-- Two plots that differ only in the numbers of their curves and in what is not drawn of them. -/
structure Plot.Alike (p q : Plot) : Prop where
  window : p.window = q.window
  lo : p.lo = q.lo
  hi : p.hi = q.hi
  looks : p.curves.map Traced.look = q.curves.map Traced.look

/-- Two curves with the same color, mark and expression. The expressions may be shown with different
minus signs. -/
structure Curve.Alike (f g : Curve) : Prop where
  color : f.color = g.color
  highlight : f.highlight = g.highlight
  tree : f.formula.tree = g.formula.tree

/-- The curves that are not hidden. -/
def Curve.visible (curves : List Curve) : List Curve := curves.filter fun f => !f.hidden

theorem Curve.visible_visible (curves : List Curve) : visible (visible curves) = visible curves := by
  rw [visible, visible, List.filter_filter]
  simp only [Bool.and_self]

namespace Canvas

variable {c : Canvas} {w : Window} {p q : Plot} {t u : Traced} {ts us : List Traced}
  {curves curves' : List Curve} {row column : Nat}

/-! ## Plots that are alike -/

theorem map_look_filter {s : Traced → Bool} (hs : ∀ t u : Traced, t.look = u.look → s t = s u)
    (h : ts.map Traced.look = us.map Traced.look) :
    (ts.filter s).map Traced.look = (us.filter s).map Traced.look := by
  induction ts generalizing us with
  | nil =>
    rw [List.map_nil, eq_comm, List.map_eq_nil_iff] at h
    rw [h]
  | cons t ts ih =>
    cases us with
    | nil => cases h
    | cons u us =>
      obtain ⟨hlook, htail⟩ := List.cons.inj h
      rw [List.filter_cons, List.filter_cons, hs t u hlook]
      split
      · rw [List.map_cons, List.map_cons, hlook, ih htail]
      · exact ih htail

theorem map_look_drawingOrder (h : ts.map Traced.look = us.map Traced.look) :
    (drawingOrder ts).map Traced.look = (drawingOrder us).map Traced.look := by
  have hlayer (k : Highlight) :
      (ts.filter fun t => t.curve.highlight = k).map Traced.look =
        (us.filter fun t => t.curve.highlight = k).map Traced.look := by
    refine map_look_filter (fun t u hlook => ?_) h
    rw [show t.curve.highlight = u.curve.highlight from congrArg Look.highlight hlook]
  simp only [drawingOrder, List.map_append, hlayer]

theorem rowOf_alike (h : p.Alike q) (v : Float) : c.rowOf p v = c.rowOf q v := by
  rw [rowOf, rowOf, h.lo, h.hi]

theorem fallsInto_alike (h : p.Alike q) (hlook : t.look = u.look) :
    c.fallsInto p row column t = c.fallsInto q row column u := by
  have hsamples : t.samples = u.samples := congrArg Look.samples hlook
  simp only [fallsInto, hsamples, rowOf_alike h]

theorem map_look_shown? (h : p.Alike q) :
    (c.shown? p row column).map Traced.look = (c.shown? q row column).map Traced.look := by
  have hrow : c.fallsInto q row column = c.fallsInto p row column :=
    funext fun t => (fallsInto_alike h rfl).symm
  rw [shown?, shown?, ← List.getLast?_map, ← List.getLast?_map, hrow]
  refine congrArg List.getLast? (map_look_filter (fun t u hlook => ?_) (map_look_drawingOrder h.looks))
  rw [fallsInto_alike h hlook, hrow]

theorem swatch_look (ansi : Bool) (h : t.look = u.look) : swatch ansi t.curve = swatch ansi u.curve := by
  have hcolor : t.curve.color = u.curve.color := congrArg Look.color h
  have hhighlight : t.curve.highlight = u.curve.highlight := congrArg Look.highlight h
  rw [swatch, swatch, hcolor, hhighlight]

theorem axisMark_alike (h : p.Alike q) : c.axisMark p row column = c.axisMark q row column := by
  rw [axisMark, axisMark, horizontalAxis, horizontalAxis, verticalAxis, verticalAxis, rowOf_alike h,
    h.lo, h.hi, h.window]

theorem shownText_alike (h : p.Alike q) : c.shownText p row column = c.shownText q row column := by
  have hshown : (c.shown? p row column).map Traced.look = (c.shown? q row column).map Traced.look :=
    map_look_shown? h
  rw [shownText, shownText]
  cases ht : c.shown? p row column with
  | none =>
    rw [ht, Option.map_none, eq_comm, Option.map_eq_none_iff] at hshown
    rw [hshown]
    exact congrArg (fun mark => [mark]) (axisMark_alike h)
  | some t =>
    rw [ht, Option.map_some, eq_comm, Option.map_eq_some_iff] at hshown
    obtain ⟨u, hu, hlook⟩ := hshown
    rw [hu]
    exact swatch_look c.ansi hlook.symm

theorem line_alike (h : p.Alike q) : c.line p row = c.line q row := by
  have hcells : c.rowCells p row = c.rowCells q row :=
    List.map_congr_left fun column _ => shownText_alike h
  rw [line, line, hcells, rowLabel, rowLabel, h.lo, h.hi]

/-! ## The visible curves -/

/-- How a curve looks when it is traced. -/
def lookOf (c : Canvas) (w : Window) (f : Curve) : Look :=
  ⟨f.color, f.highlight, ((c.sampling w).sample f.formula).toArray⟩

theorem map_look_trace (c : Canvas) (w : Window) (curves : List Curve) :
    (c.trace w curves).map Traced.look = (Curve.visible curves).map (c.lookOf w) := by
  have hlook (n : Nat) : ((curves.zipIdx n).filterMap fun k =>
      if k.1.hidden then none else some (c.traced w k.1 k.2)).map Traced.look =
        (Curve.visible curves).map (c.lookOf w) := by
    induction curves generalizing n with
    | nil => rfl
    | cons f curves ih =>
      rw [List.zipIdx_cons, Curve.visible]
      cases hhidden : f.hidden with
      | true =>
        rw [List.filterMap_cons_none (by simp [hhidden]), List.filter_cons_of_neg (by simp [hhidden])]
        exact ih (n + 1)
      | false =>
        rw [List.filterMap_cons_some (b := c.traced w f n) (by simp [hhidden]),
          List.filter_cons_of_pos (by simp [hhidden]), List.map_cons, List.map_cons]
        exact congrArg _ (ih (n + 1))
  exact hlook 0

theorem flatMap_look (ts : List Traced) :
    (ts.flatMap fun t => t.samples.toList.map Sample.y) =
      (ts.map Traced.look).flatMap fun l => l.samples.toList.map Sample.y := by
  rw [List.flatMap_map]
  rfl

/-- Curves that look alike give plots that are alike. -/
theorem plot?_alike
    (h : (Curve.visible curves).map (c.lookOf w) = (Curve.visible curves').map (c.lookOf w)) :
    (c.plot? w curves = none ∧ c.plot? w curves' = none) ∨
      ∃ p q, c.plot? w curves = some p ∧ c.plot? w curves' = some q ∧ p.Alike q := by
  have hlooks : (c.trace w curves).map Traced.look = (c.trace w curves').map Traced.look := by
    rw [map_look_trace, map_look_trace, h]
  have hvalues : (c.trace w curves).flatMap (fun t => t.samples.toList.map Sample.y) =
      (c.trace w curves').flatMap fun t => t.samples.toList.map Sample.y := by
    rw [flatMap_look, flatMap_look, hlooks]
  rw [plot?, plot?, hvalues]
  cases extremes (((c.trace w curves').flatMap fun t => t.samples.toList.map Sample.y).filter
    Float.isFinite) with
  | none => exact .inl ⟨rfl, rfl⟩
  | some bounds => exact .inr ⟨_, _, rfl, rfl, rfl, rfl, rfl, hlooks⟩

theorem render_looks
    (h : (Curve.visible curves).map (c.lookOf w) = (Curve.visible curves').map (c.lookOf w)) :
    c.render w curves = c.render w curves' := by
  rcases plot?_alike h with ⟨hnone, hnone'⟩ | ⟨p, q, hp, hq, halike⟩
  · rw [render, render, hnone, hnone']
  · rw [← String.toList_inj, toList_render hp, toList_render hq]
    simp only [line_alike halike]

theorem lookOf_alike {f g : Curve} (h : f.Alike g) : c.lookOf w f = c.lookOf w g := by
  have hsample : (c.sampling w).sample f.formula = (c.sampling w).sample g.formula := by
    simp only [Sampling.sample, Formula.eval, h.tree]
  rw [lookOf, lookOf, h.color, h.highlight, hsample]

theorem map_lookOf_alike {fs gs : List Curve} (h : List.Forall₂ Curve.Alike fs gs) :
    fs.map (c.lookOf w) = gs.map (c.lookOf w) := by
  induction h with
  | nil => rfl
  | cons hfg _ ih => rw [List.map_cons, List.map_cons, lookOf_alike hfg, ih]

/-- Formulas that were read and have the same canonical text have the same tree. -/
theorem alike_of_same {f g : Curve} {k l : Glyph} {s s' : String}
    (hf : Formula.parse k s = .ok f.formula) (hg : Formula.parse l s' = .ok g.formula)
    (h : f.same g = true) : f.Alike g := by
  simp only [Curve.same, Bool.and_eq_true, decide_eq_true_eq] at h
  obtain ⟨⟨⟨hcolor, hformula⟩, -⟩, hhighlight⟩ := h
  refine ⟨hcolor, hhighlight, ?_⟩
  exact (Formula.plain_of_parse hf).text_injective (Formula.plain_of_parse hg) (eq_of_beq hformula)

theorem forall₂_alike_of_same {fs gs : List Curve}
    (hfs : ∀ f ∈ fs, ∃ k s, Formula.parse k s = .ok f.formula)
    (hgs : ∀ g ∈ gs, ∃ k s, Formula.parse k s = .ok g.formula)
    (h : List.Forall₂ (fun f g => Curve.same f g = true) fs gs) : List.Forall₂ Curve.Alike fs gs := by
  induction h with
  | nil => exact .nil
  | cons hfg _ ih =>
    obtain ⟨⟨k, s, hf⟩, hfs⟩ := List.forall_mem_cons.mp hfs
    obtain ⟨⟨l, s', hg⟩, hgs⟩ := List.forall_mem_cons.mp hgs
    exact .cons (alike_of_same hf hg hfg) (ih hfs hgs)

/-- **Hidden curves do not show.** A picture is that of the visible curves. It is the same for two lists
of curves whose visible ones are alike in order, whatever hidden ones stand between them; for formulas
that were read it is enough that the visible curves are the same one by one. -/
theorem render_visible (c : Canvas) (w : Window) (curves : List Curve) :
    c.render w curves = c.render w (Curve.visible curves) ∧
      ∀ curves',
        (List.Forall₂ Curve.Alike (Curve.visible curves) (Curve.visible curves') →
          c.render w curves = c.render w curves') ∧
        ((∀ f ∈ curves ++ curves', ∃ k s, Formula.parse k s = .ok f.formula) →
          List.Forall₂ (fun f g => Curve.same f g = true) (Curve.visible curves)
            (Curve.visible curves') → c.render w curves = c.render w curves') := by
  refine ⟨render_looks (by rw [Curve.visible_visible]), fun curves' => ⟨fun h => ?_, fun hread h => ?_⟩⟩
  · exact render_looks (map_lookOf_alike h)
  · obtain ⟨hcurves, hcurves'⟩ := List.forall_mem_append.mp hread
    refine render_looks (map_lookOf_alike (forall₂_alike_of_same (fun f hf => ?_) (fun g hg => ?_) h))
    · exact hcurves f (List.mem_filter.mp hf).1
    · exact hcurves' g (List.mem_filter.mp hg).1

/-- Hidden curves with greater values, before the visible one and behind it, change nothing. -/
theorem render_visible_between :
    let c : Canvas := ⟨8, 4, true⟩
    let w : Window := ⟨-2, 2⟩
    let f : Curve := .new (.nth 0) ⟨.binary .sub .var (.number 1), .hyphen⟩
    let g : Curve := .new (.nth 0) ⟨.binary .sub .var (.number 1), .ofChar '−'⟩
    let h : Curve := { Curve.new (.nth 1) ⟨.number 100, .hyphen⟩ with hidden := true }
    c.render w [f, h] = c.render w [f] ∧ c.render w [f, h] = c.render w [h, h, g] := by
  intro c w f g h
  have hf : Formula.parse .hyphen "x - 1" = .ok f.formula :=
    Except.eq_ok_of_toOption (by decide +kernel)
  have hg : Formula.parse (.ofChar '−') "((x)−1.0)" = .ok g.formula :=
    Except.eq_ok_of_toOption (by decide +kernel)
  have hh : Formula.parse .hyphen "1e2" = .ok h.formula :=
    Except.eq_ok_of_toOption (by decide +kernel)
  have hread : ∀ k ∈ [f, h] ++ [h, h, g], ∃ l s, Formula.parse l s = .ok k.formula := by
    simp only [List.cons_append, List.nil_append, List.forall_mem_cons]
    exact ⟨⟨_, _, hf⟩, ⟨_, _, hh⟩, ⟨_, _, hh⟩, ⟨_, _, hh⟩, ⟨_, _, hg⟩, nofun⟩
  have hsame : f.same g = true := by decide +kernel
  obtain ⟨hvisible, hcurves⟩ := render_visible c w [f, h]
  exact ⟨hvisible, (hcurves [h, h, g]).2 hread (.cons hsame .nil)⟩

end Canvas

end CurvePlot
