import CurvePlot.Proofs.Formula.Copy
import CurvePlot.Proofs.Series.Join
import CurvePlot.Session

/-! The persisted form of a session.

It can be written exactly if all canonical texts read back (`persisted_eq_ok`). It is the text of a
series, and loading that gives the formulas again (`persisted_loses_nothing`). -/

namespace CurvePlot.Session

variable {s : Session} {text : String} {cs : List Curve} {fs : List Formula}

theorem mapM_copy (h : ∀ c ∈ cs, c.formula.tree.Plain) :
    cs.mapM (fun c => c.formula.copy) = .ok fs ↔
      (∀ c ∈ cs, c.formula.ReadsBack) ∧ fs = cs.map (·.formula) := by
  induction cs generalizing fs with
  | nil => simp [eq_comm, pure, Except.pure]
  | cons c cs ih =>
    rw [List.forall_mem_cons] at h ⊢
    rw [List.mapM_cons]
    constructor
    · intro heq
      obtain ⟨f, hf, heq⟩ := Except.bind_eq_ok.mp heq
      obtain ⟨gs, hgs, ⟨⟩⟩ := Except.bind_eq_ok.mp heq
      obtain ⟨hback, rfl⟩ := (Formula.copy_eq_ok h.1).mp hf
      obtain ⟨hbacks, rfl⟩ := (ih h.2).mp hgs
      exact ⟨⟨hback, hbacks⟩, rfl⟩
    · rintro ⟨⟨hback, hbacks⟩, rfl⟩
      rw [(Formula.copy_eq_ok h.1).mpr ⟨hback, rfl⟩, (ih h.2).mpr ⟨hbacks, rfl⟩]
      rfl

theorem persisted_eq_ok (h : ∀ c ∈ s.curves, c.formula.tree.Plain) :
    s.persisted = .ok text ↔
      (∀ c ∈ s.curves, c.formula.ReadsBack) ∧ text = Series.join (s.curves.map (·.formula)) := by
  constructor
  · intro heq
    obtain ⟨fs, hfs, ⟨⟩⟩ := Except.bind_eq_ok.mp heq
    obtain ⟨hbacks, rfl⟩ := (mapM_copy h).mp hfs
    exact ⟨hbacks, rfl⟩
  · rintro ⟨hbacks, rfl⟩
    rw [persisted, (mapM_copy h).mpr ⟨hbacks, rfl⟩]
    rfl

theorem load_eq_ok {line : String} (h : Series.split s.glyph line = .ok fs) :
    s.load line = .ok { s with curves := color fs } := by
  rw [load, h]
  rfl

theorem color_map (φ : Formula → Formula) (fs : List Formula) :
    color (fs.map φ) = fs.mapIdx fun i f => .new (.nth i) (φ f) :=
  List.ext_getElem? fun i => by
    simp only [color, List.getElem?_mapIdx, List.getElem?_map, Option.map_map, Function.comp_def]

theorem load_persisted (h : ∀ c ∈ s.curves, c.formula.tree.Plain) (hs : s.persisted = .ok text)
    (s' : Session) : s'.load text = .ok { s' with
      curves := color ((s.curves.map (·.formula)).map fun f => { f with glyph := s'.glyph }) } := by
  obtain ⟨hbacks, rfl⟩ := (persisted_eq_ok h).mp hs
  have hread : ∀ f ∈ s.curves.map (·.formula), f.tree.Plain ∧ f.ReadsBack := by
    rw [List.forall_mem_map]
    exact fun c hc => ⟨h c hc, hbacks c hc⟩
  exact load_eq_ok (Series.split_join_ok hread s'.glyph)

/-- **The persisted form loses nothing.** The text of formulas that were read is split into the same
formulas, with the minus sign that it is read with, up to the first one whose canonical text does not
read back, which is refused as too deep. So the persisted form of a session can be loaded into any
session, which then has the same formulas. -/
theorem persisted_loses_nothing (fs : List Formula) (h : ∀ f ∈ fs, ∃ g s, Formula.parse g s = .ok f)
    (g : Glyph) :
    ((∀ f ∈ fs, f.ReadsBack) →
        Series.split g (Series.join fs) = .ok (fs.map fun f => { f with glyph := g })) ∧
      (∀ before f after, fs = before ++ f :: after → (∀ f' ∈ before, f'.ReadsBack) → ¬f.ReadsBack →
        ∃ offset o, Series.split g (Series.join fs) =
          .error { index := before.length, offset, cause := .parse (.tooDeep o) }) ∧
        ∀ (s : Session) (text : String), s.curves.map (·.formula) = fs → s.persisted = .ok text →
          ∀ s' : Session, s'.load text = .ok { s' with
            curves := fs.mapIdx fun i f =>
              { color := .nth i, formula := { f with glyph := s'.glyph }, hidden := false,
                highlight := .none } } := by
  have hplain : ∀ f ∈ fs, f.tree.Plain := by
    intro f hf
    obtain ⟨g, s, hparse⟩ := h f hf
    exact Formula.plain_of_parse hparse
  refine ⟨fun hbacks => ?_, ?_, ?_⟩
  · exact Series.split_join_ok (fun f hf => ⟨hplain f hf, hbacks f hf⟩) g
  · rintro before f after rfl hbacks hdeep
    rw [List.forall_mem_append, List.forall_mem_cons] at hplain
    exact Series.split_join_error (fun f' hf' => ⟨hplain.1 f' hf', hbacks f' hf'⟩) hplain.2.1 hdeep g
  · rintro s text rfl hs s'
    rw [List.forall_mem_map] at hplain
    rw [load_persisted hplain hs s', color_map]
    rfl

theorem persisted_loses_nothing_minus :
    let f : Formula := ⟨.binary .sub .var (.number 1), .ofChar '−'⟩
    let f' : Formula := ⟨.neg .var, .hyphen⟩
    let deep : Formula := ⟨Formula.addVars .var 400, .hyphen⟩
    let s : Session := { Session.new ⟨-10, 10⟩ .hyphen with curves := color [f, f'] }
    (∀ e ∈ [f, deep, f'], ∃ g s, Formula.parse g s = .ok e) ∧
      (f.ReadsBack ∧ f'.ReadsBack ∧ ¬deep.ReadsBack) ∧
        Series.split .hyphen (Series.join [f, f']) = .ok [{ f with glyph := .hyphen }, f'] ∧
          (∃ offset o, Series.split .hyphen (Series.join [f, deep, f']) =
            .error { index := 1, offset, cause := .parse (.tooDeep o) }) ∧
            s.persisted = .ok "x - 1;-x" ∧
              s.load "x - 1;-x" =
                .ok { s with curves := color [{ f with glyph := .hyphen }, f'] } := by
  intro f f' deep s
  have hf : Formula.parse (.ofChar '−') "x−1" = .ok f := Except.eq_ok_of_toOption (by decide +kernel)
  have hf' : Formula.parse .hyphen "-x" = .ok f' := Except.eq_ok_of_toOption (by decide +kernel)
  have hdeep : Formula.parse .hyphen (Formula.twoChains 200 200) = .ok deep :=
    Formula.parse_twoChains (by decide) (by decide)
  have hback : f.ReadsBack := (Formula.readsBack_iff (Formula.plain_of_parse hf)).mpr (by decide)
  have hback' : f'.ReadsBack := (Formula.readsBack_iff (Formula.plain_of_parse hf')).mpr (by decide)
  have hnot : ¬deep.ReadsBack := by
    rw [Formula.readsBack_iff (Formula.plain_of_parse hdeep), Formula.nesting_addVars]
    decide
  have hall : ∀ e ∈ [f, deep, f'], ∃ g s, Formula.parse g s = .ok e := by
    simp only [List.forall_mem_cons]
    exact ⟨⟨_, _, hf⟩, ⟨_, _, hdeep⟩, ⟨_, _, hf'⟩, nofun⟩
  have hpair : ∀ e ∈ [f, f'], ∃ g s, Formula.parse g s = .ok e := by
    simp only [List.forall_mem_cons]
    exact ⟨⟨_, _, hf⟩, ⟨_, _, hf'⟩, nofun⟩
  have hs : s.persisted = .ok "x - 1;-x" := Except.eq_ok_of_toOption (by decide +kernel)
  have hloses := persisted_loses_nothing [f, f'] hpair .hyphen
  refine ⟨hall, ⟨hback, hback', hnot⟩, hloses.1 ?_, ?_, hs, hloses.2.2 s _ rfl hs s⟩
  · simp only [List.forall_mem_cons]
    exact ⟨hback, hback', nofun⟩
  · refine (persisted_loses_nothing [f, deep, f'] hall .hyphen).2.1 [f] deep [f'] rfl ?_ hnot
    simp only [List.forall_mem_cons]
    exact ⟨hback, nofun⟩

end CurvePlot.Session
