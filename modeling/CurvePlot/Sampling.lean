import CurvePlot.Formula
import CurvePlot.Window

/-! Values of a formula at evenly spaced places of a window. -/

namespace CurvePlot

/-- A window cut into `steps` equal parts. -/
structure Sampling where
  window : Window
  steps : Nat
deriving DecidableEq

/-- A place and the value there. -/
structure Sample where
  x : Float
  y : Float
deriving DecidableEq

namespace Sampling

/-- The `i`-th place. Both ends of the window are hit exactly. -/
def x (s : Sampling) (i : Nat) : Float :=
  let w := s.window
  if s.steps = 0 ∨ i = 0 then w.left
  else if s.steps ≤ i then w.right
  else w.left + (w.right - w.left) * Binary64.ofNat i / Binary64.ofNat s.steps

/-- All places, one more than there are parts. -/
def abscissae (s : Sampling) : List Float := (List.range (s.steps + 1)).map s.x

/-- The values at all places, also those that are not finite. -/
def sample (s : Sampling) (f : Formula) : List Sample := s.abscissae.map fun x => ⟨x, f.eval x⟩

/-- The longest runs of samples with finite values, in order. -/
def runs : List Sample → List (List Sample)
  | [] => []
  | p :: ps =>
    if !p.y.isFinite then runs ps
    else
      match ps, runs ps with
      | p' :: _, run :: rest => if p'.y.isFinite then (p :: run) :: rest else [p] :: run :: rest
      | _, rest => [p] :: rest

/-- The connected pieces of the curve. -/
def segments (s : Sampling) (f : Formula) : List (List Sample) := runs (s.sample f)

end Sampling

end CurvePlot
