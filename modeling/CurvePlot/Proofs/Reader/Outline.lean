import Mathlib
import CurvePlot.Proofs.Reader.Moves

/-! How deep a token is nested, told from the tokens up to it alone.

A token is nested in the open parentheses and, at each level of them, in operators that came since the
last comma: all binary `+` and `-`, the `*` and `/` since the last one of those, and the prefix minus
signs and `^` since the last one of either. An `Outline` keeps the roles of the tokens that this needs.
It follows the states of the reader (`Traces.of_feed`), whose depth is the nesting of the last token
(`depth_eq_nesting`). -/

namespace CurvePlot.Parser

/-- What a token is at its level. -/
inductive Role where
  /-- An operand, the name of a function or the end of what is in parentheses. -/
  | operand
  /-- A binary `+` or `-`. -/
  | sum
  /-- A `*` or `/`. -/
  | product
  /-- A `^` or a prefix minus sign. -/
  | tight
deriving DecidableEq

/-- The operators that are counted at a level, whose roles are given latest first. -/
def Role.weight (rs : List Role) : Nat :=
  rs.count .sum + (rs.takeWhile (· ≠ .sum)).count .product +
    (rs.takeWhile fun r => r ≠ .sum ∧ r ≠ .product).count .tight

/-- The roles of the tokens since the last comma, at the innermost level and at those around it. -/
structure Outline where
  current : List Role := []
  outer : List (List Role) := []

namespace Outline

def push (o : Outline) (r : Role) : Outline := { o with current := r :: o.current }

/-- Goes on with one token. A minus sign is binary behind an operand. -/
def add (o : Outline) : Token.Kind → Outline
  | .number _ | .ident _ => o.push .operand
  | .plus => o.push .sum
  | .minus => o.push (if o.current.head? = some .operand then .sum else .tight)
  | .star | .slash => o.push .product
  | .caret => o.push .tight
  | .lparen => { current := [], outer := o.current :: o.outer }
  | .rparen =>
    match o.outer with
    | [] => o
    | rs :: outer => { current := .operand :: rs, outer }
  | .comma => { o with current := [] }
  | .eof => o

/-- The open parentheses and the operators of all levels. -/
def nesting (o : Outline) : Nat :=
  o.outer.length + (Role.weight o.current + (o.outer.map Role.weight).sum)

end Outline

/-- The outline of tokens from the beginning. -/
def outline (ts : List Token) : Outline := ts.foldl (fun o t => o.add t.kind) {}

/-- How deep the last of the tokens is nested, itself counted. -/
def nesting (ts : List Token) : Nat := (outline ts).nesting

theorem outline_concat {ts : List Token} {t : Token} :
    outline (ts ++ [t]) = (outline ts).add t.kind := by
  rw [outline, List.foldl_append]
  rfl

/-! ## Levels -/

/-- The operators of a level are as many as their roles say. -/
structure Level.Counts (l : Level) (rs : List Role) : Prop where
  sum : l.sum.length = rs.count .sum
  product : l.product.length = (rs.takeWhile (· ≠ .sum)).count .product
  pending : l.pending.length = (rs.takeWhile fun r => r ≠ .sum ∧ r ≠ .product).count .tight

namespace Level.Counts

variable {l : Level} {rs : List Role} {a : Expr} {op : BinOp} {p : Pending}

theorem depth_eq (h : l.Counts rs) : l.depth = Role.weight rs := by
  rw [depth, h.sum, h.product, h.pending, Role.weight]

theorem empty : ({} : Level).Counts [] := ⟨rfl, rfl, rfl⟩

theorem operand (h : l.Counts rs) : l.Counts (.operand :: rs) where
  sum := h.sum
  product := h.product
  pending := h.pending

theorem add (h : l.Counts rs) : (l.add a op).Counts (.sum :: rs) where
  sum := by simp [Level.add, Chain.extend, h.sum]
  product := by simp [Level.add]
  pending := by simp [Level.add]

theorem mul (h : l.Counts rs) : (l.mul a op).Counts (.product :: rs) where
  sum := by simp [Level.mul, h.sum]
  product := by simp [Level.mul, Chain.extend, h.product]
  pending := by simp [Level.mul]

theorem wait (h : l.Counts rs) : (l.wait p).Counts (.tight :: rs) where
  sum := by simp [Level.wait, h.sum]
  product := by simp [Level.wait, h.product]
  pending := by simp [Level.wait, h.pending]

end Level.Counts

/-! ## States -/

/-- The outline has the levels of the state, and an operand at its end where the state has. -/
structure Outline.Traces (o : Outline) (s : State) : Prop where
  level : s.level.Counts o.current
  frames : List.Forall₂ (fun (f : Frame) rs => f.outer.Counts rs) s.frames o.outer
  operand : ∀ b, s.focus = .operand b → o.current.head? ≠ some .operand
  complete : ∀ a, s.focus = .complete a → o.current.head? = some .operand

namespace Outline.Traces

variable {o : Outline} {s s' : State} {t : Token} {ts us : List Token} {limit : Option Nat}

theorem initial : Traces {} {} where
  level := .empty
  frames := .nil
  operand := nofun
  complete := nofun

theorem depth_frames {fs : List Frame} {outer : List (List Role)}
    (h : List.Forall₂ (fun (f : Frame) rs => f.outer.Counts rs) fs outer) :
    fs.foldr (fun f d => 1 + f.outer.depth + d) 0 =
      outer.length + (outer.map Role.weight).sum := by
  induction h with
  | nil => rfl
  | cons hl _ ih =>
    rw [List.foldr_cons, ih, hl.depth_eq, List.length_cons, List.map_cons, List.sum_cons]
    omega

theorem depth_eq (h : o.Traces s) : s.depth = o.nesting := by
  rw [State.depth, depth_frames h.frames, h.level.depth_eq, nesting]
  omega

section states

variable {b : Bool} {a : Expr} {r : Role} {level : Level} {frames : List Frame} {last : Nat}

theorem of_operand (hl : level.Counts o.current)
    (hf : List.Forall₂ (fun (f : Frame) rs => f.outer.Counts rs) frames o.outer)
    (ho : o.current.head? ≠ some .operand) : o.Traces ⟨.operand b, level, frames, last⟩ :=
  ⟨hl, hf, fun _ _ => ho, nofun⟩

theorem of_complete (hl : level.Counts o.current)
    (hf : List.Forall₂ (fun (f : Frame) rs => f.outer.Counts rs) frames o.outer)
    (ho : o.current.head? = some .operand) : o.Traces ⟨.complete a, level, frames, last⟩ :=
  ⟨hl, hf, nofun, fun _ _ => ho⟩

theorem of_name {f : Func} {offset : Nat} (hl : level.Counts o.current)
    (hf : List.Forall₂ (fun (f : Frame) rs => f.outer.Counts rs) frames o.outer) :
    o.Traces ⟨.name f offset, level, frames, last⟩ :=
  ⟨hl, hf, nofun, nofun⟩

/-- An operand has to follow an operator. -/
theorem of_push (hl : level.Counts (r :: o.current))
    (hf : List.Forall₂ (fun (f : Frame) rs => f.outer.Counts rs) frames o.outer)
    (hr : r ≠ .operand) : (o.push r).Traces ⟨.operand b, level, frames, last⟩ :=
  of_operand hl hf fun h => hr (Option.some.inj h)

end states

theorem move {focus : Focus} {frames : List Frame} {level : Level} {last : Nat} (h : o.Traces s)
    (hm : s.Move t focus frames level) : (o.add t.kind).Traces ⟨focus, level, frames, last⟩ := by
  cases hm with
  | number hs ht | operand hs ht =>
    rw [ht]
    exact of_complete h.level.operand h.frames rfl
  | function hs ht =>
    rw [ht]
    exact of_name h.level.operand h.frames
  | @neg b hs ht =>
    rw [ht, add, if_neg (h.operand b hs)]
    exact of_push h.level.wait h.frames (by decide)
  | group hs ht | call hs ht =>
    rw [ht]
    exact of_operand .empty (.cons h.level h.frames) (Option.some_ne_none _).symm
  | @sum a op hop hs ht =>
    have hadd : o.add t.kind = o.push .sum := by
      rcases hop with rfl | rfl
      · rw [ht, BinOp.kind, add]
      · rw [ht, BinOp.kind, add, if_pos (h.complete a hs)]
    rw [hadd]
    exact of_push h.level.add h.frames (by decide)
  | product hop hs ht =>
    have hadd : o.add t.kind = o.push .product := by
      rcases hop with rfl | rfl <;> rw [ht, BinOp.kind, add]
    rw [hadd]
    exact of_push h.level.mul h.frames (by decide)
  | pow hs ht =>
    rw [ht]
    exact of_push h.level.wait h.frames (by decide)
  | closeGroup hs ht hf | closeCall hs ht hf =>
    have hframes := h.frames
    rw [hf] at hframes
    obtain ⟨current, outer⟩ := o
    cases hframes with
    | cons hl hfs =>
      rw [ht]
      exact of_complete (Level.Counts.operand hl) hfs rfl
  | nextArgument hs ht hf =>
    have hframes := h.frames
    rw [hf] at hframes
    obtain ⟨current, outer⟩ := o
    cases hframes with
    | cons hl hfs =>
      rw [ht]
      exact of_operand .empty (.cons hl hfs) (Option.some_ne_none _).symm

theorem of_feed (h : ({} : State).feed limit ts = .ok s) : (outline ts).Traces s := by
  refine State.invariant_of_feed (P := fun s us => (outline us).Traces s) initial (fun hs hm => ?_) h
  rw [outline_concat]
  exact hs.move hm

end Outline.Traces

/-- **The depth of the reader's state** is the nesting of the last token that it has read. -/
theorem depth_eq_nesting {s : State} {ts : List Token} {limit : Option Nat}
    (h : ({} : State).feed limit ts = .ok s) : s.depth = nesting ts :=
  (Outline.Traces.of_feed h).depth_eq

/-- In `x+x*-(` there are a sum, a product, a minus sign and a parenthesis. -/
example : nesting [⟨.ident "x", 0⟩, ⟨.plus, 1⟩, ⟨.ident "x", 2⟩, ⟨.star, 3⟩, ⟨.minus, 4⟩,
    ⟨.lparen, 5⟩] = 4 := by
  decide

end CurvePlot.Parser
