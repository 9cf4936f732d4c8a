import CurvePlot.Decimal.Layout

/-! The interval of the variable that is plotted. -/

namespace CurvePlot

structure Window where
  left : Float
  right : Float
deriving DecidableEq

/-- Why an interval cannot be plotted. -/
inductive RangeError where
  | notFinite
  | empty (window : Window)
deriving DecidableEq

namespace Window

/-- Both ends between brackets. -/
def text (w : Window) : String :=
  String.ofList ('[' :: Decimal.plain w.left ++ ", ".toList ++ Decimal.plain w.right ++ [']'])

/-- The ends have to be finite and in order. -/
def check (w : Window) : Except RangeError Unit :=
  if !w.left.isFinite || !w.right.isFinite then .error .notFinite
  else if w.left < w.right then .ok ()
  else .error (.empty w)

theorem check_eq_ok {w : Window} :
    w.check = .ok () ↔ w.left.isFinite = true ∧ w.right.isFinite = true ∧ w.left < w.right := by
  rw [Window.check]
  split
  · next h =>
    refine ⟨nofun, fun ⟨hleft, hright, _⟩ => ?_⟩
    rw [hleft, hright] at h
    cases h
  · next h =>
    simp only [Bool.or_eq_true, Bool.not_eq_true', not_or, Bool.not_eq_false] at h
    split
    · next hlt => exact ⟨fun _ => ⟨h.1, h.2, hlt⟩, fun _ => rfl⟩
    · next hlt => exact ⟨nofun, fun hends => absurd hends.2.2 hlt⟩

end Window

def RangeError.message : RangeError → String
  | notFinite => "range bounds must be finite"
  | empty w => "empty range " ++ w.text

end CurvePlot
