import CurvePlot.Formula
import CurvePlot.Proofs.Expr.RoundTrip
import CurvePlot.Proofs.Token.Alphabet

/-! The canonical text of a formula.

It consists of ASCII characters, so that it is read alike whatever the minus sign is
(`toCanonical_text`). It reads back as the formula or is refused as too deep
(`parse_of_readsBack`, `parse_of_not_readsBack`). Formulas that were read are the same only if they
have the same tree (`same_sound`). -/

namespace CurvePlot

namespace Expr

theorem toNat_lt_of_mem_text (a : Expr) : ∀ c ∈ a.text.toList, c.toNat < 128 := by
  intro c hc
  obtain hnil | hb | hl := (lexed_text a).mem c hc
  · exact absurd hnil List.not_mem_nil
  · obtain rfl | rfl | rfl | rfl := Token.isBlank_iff.mp hb <;> decide
  · have hbounds := hl.toNat_bounds
    omega

end Expr

namespace Glyph

theorem toCanonical_eq_self (g : Glyph) {s : String}
    (h : ∀ c ∈ s.toList, c = g.display → c = '-') : g.toCanonical s = s := by
  have hid : ∀ c ∈ s.toList, (if c = g.display then '-' else c) = c := by
    intro c hc
    split
    · next hg => exact (h c hc hg).symm
    · rfl
  rw [toCanonical, ← String.toList_inj, String.toList_map]
  exact (List.map_congr_left hid).trans (List.map_id _)

theorem toCanonical_hyphen (s : String) : hyphen.toCanonical s = s :=
  toCanonical_eq_self hyphen fun _ _ h => h

/-- The minus sign does not occur in a canonical text unless it is the hyphen. -/
theorem eq_hyphen_of_mem_text (g : Glyph) (a : Expr) :
    ∀ c ∈ a.text.toList, c = g.display → c = '-' := by
  intro c hc hg
  rcases g.safe with hs | hs
  · exact hg.trans hs
  · exact absurd (a.toNat_lt_of_mem_text c hc) (by rw [hg]; omega)

theorem toCanonical_text (g : Glyph) (a : Expr) : g.toCanonical a.text = a.text :=
  g.toCanonical_eq_self (g.eq_hyphen_of_mem_text a)

end Glyph

namespace Formula

variable {g : Glyph} {s : String} {f : Formula}

theorem parse_eq (g : Glyph) (s : String) :
    parse g s = (Expr.ofText (g.toCanonical s)).map fun a => ⟨a, g⟩ := by
  rw [parse]
  cases Expr.ofText (g.toCanonical s) <;> rfl

theorem ofText_of_parse (h : parse g s = .ok f) :
    Expr.ofText (g.toCanonical s) = .ok f.tree := by
  rw [parse_eq] at h
  obtain ⟨a, ha, rfl⟩ := Except.map_eq_ok.mp h
  exact ha

theorem plain_of_parse (h : parse g s = .ok f) : f.tree.Plain :=
  Expr.plain_of_ofText (ofText_of_parse h)

/-- The canonical text is read as some tree. -/
def ReadsBack (f : Formula) : Prop := ∃ a, Expr.ofText f.canonical = .ok a

/-- The glyph does not matter for whether the canonical text is read. -/
theorem parse_canonical (g : Glyph) (f : Formula) :
    parse g f.canonical = (Expr.ofText f.canonical).map fun a => ⟨a, g⟩ := by
  rw [parse_eq, canonical, g.toCanonical_text]

theorem ofText_canonical (hf : f.tree.Plain) :
    (f.tree.nesting ≤ Expr.maxDepth ∧ Expr.ofText f.canonical = .ok f.tree) ∨
      (Expr.maxDepth < f.tree.nesting ∧
        ∃ o, Expr.ofText f.canonical = .error (.parse (.tooDeep o))) := by
  have ht := Expr.ofText_text f.tree
  rwa [hf.normal] at ht

theorem readsBack_iff (hf : f.tree.Plain) : f.ReadsBack ↔ f.tree.nesting ≤ Expr.maxDepth := by
  rcases ofText_canonical hf with ⟨hle, ht⟩ | ⟨hlt, o, ht⟩
  · exact ⟨fun _ => hle, fun _ => ⟨_, ht⟩⟩
  · refine ⟨?_, fun hle => absurd hle (Nat.not_le_of_lt hlt)⟩
    rintro ⟨a, ha⟩
    rw [ht] at ha
    cases ha

theorem parse_of_readsBack (hf : f.tree.Plain) (h : f.ReadsBack) (g : Glyph) :
    parse g f.canonical = .ok { f with glyph := g } := by
  rcases ofText_canonical hf with ⟨-, ht⟩ | ⟨hlt, -⟩
  · rw [parse_canonical, ht]
    rfl
  · exact absurd ((readsBack_iff hf).mp h) (Nat.not_le_of_lt hlt)

theorem parse_of_not_readsBack (hf : f.tree.Plain) (h : ¬f.ReadsBack) :
    ∃ o, ∀ g, parse g f.canonical = .error (.parse (.tooDeep o)) := by
  rcases ofText_canonical hf with ⟨hle, -⟩ | ⟨-, o, ht⟩
  · exact absurd ((readsBack_iff hf).mpr hle) h
  · refine ⟨o, fun g => ?_⟩
    rw [parse_canonical, ht]
    rfl

/-- **Sameness is sound.** Formulas that were read and have the same canonical text have the same
tree, and so the same values. -/
theorem same_sound {g' : Glyph} {s' : String} {f' : Formula} (h : parse g s = .ok f)
    (h' : parse g' s' = .ok f') (hs : f.same f' = true) :
    f.tree = f'.tree ∧ ∀ x, f.eval x = f'.eval x := by
  have htree : f.tree = f'.tree :=
    (plain_of_parse h).text_injective (plain_of_parse h') (eq_of_beq hs)
  refine ⟨htree, fun x => ?_⟩
  rw [eval, htree]
  rfl

/-- Blanks, parentheses and the minus sign make no difference. -/
theorem same_sound_minus :
    let f : Formula := ⟨.binary .sub .var (.number 1), .ofChar '−'⟩
    let f' : Formula := ⟨.binary .sub .var (.number 1), .hyphen⟩
    parse (.ofChar '−') "((x)−1.0)" = .ok f ∧ parse .hyphen "x - 1" = .ok f' ∧
      f.same f' = true ∧ f.tree = f'.tree ∧ ∀ x, f.eval x = f'.eval x := by
  intro f f'
  have h : parse (.ofChar '−') "((x)−1.0)" = .ok f := Except.eq_ok_of_toOption (by decide +kernel)
  have h' : parse .hyphen "x - 1" = .ok f' := Except.eq_ok_of_toOption (by decide +kernel)
  have hs : f.same f' = true := by decide +kernel
  exact ⟨h, h', hs, same_sound h h' hs⟩

end Formula

end CurvePlot
