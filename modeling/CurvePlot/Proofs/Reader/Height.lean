import Mathlib.Tactic.Linarith
import CurvePlot.Expr.Value
import CurvePlot.Proofs.Reader.Grammar

/-! How high the trees of accepted expressions are.

The limit on the depth does not bound the height of a tree at once: chains and closed parentheses give
their depth back, while the tree goes on to grow above them. But a parenthesis, a power or a minus sign
costs a level, and around it there are at most two chains, no longer than the levels that are left. So
the height of a phrase is quadratic in the depth of its tokens (`Nests.height_le`). Functions that
recurse over a tree nest as many calls as the tree is high (`evalWithin_of_lt`,
`charsWithin_of_lt`). -/

namespace CurvePlot

namespace Expr

/-- The most operators and calls on a way from the root to a leaf. -/
def height : Expr → Nat
  | number _ | var | const _ => 0
  | neg a | call _ a => a.height + 1
  | binary _ a b => max a.height b.height + 1

/-- The trees `nodes` are the operators and calls on a way from the root of a tree to a leaf. -/
inductive Path : Expr → List Expr → Prop where
  | number {v} : Path (number v) []
  | var : Path var []
  | const {c} : Path (const c) []
  | neg {a nodes} : Path a nodes → Path (neg a) (neg a :: nodes)
  | left {op a b nodes} : Path a nodes → Path (binary op a b) (binary op a b :: nodes)
  | right {op a b nodes} : Path b nodes → Path (binary op a b) (binary op a b :: nodes)
  | call {f a nodes} : Path a nodes → Path (call f a) (call f a :: nodes)

theorem Path.length_le {a : Expr} {nodes : List Expr} (h : a.Path nodes) :
    nodes.length ≤ a.height := by
  induction h with
  | number | var | const => exact Nat.le_refl 0
  | neg _ ih | call _ ih => exact Nat.succ_le_succ ih
  | left _ ih => exact Nat.succ_le_succ (Nat.le_trans ih (Nat.le_max_left ..))
  | right _ ih => exact Nat.succ_le_succ (Nat.le_trans ih (Nat.le_max_right ..))

/-! ## Recursion over a tree -/

/-- The value, found by calls that are nested at most `n` deep. -/
def evalWithin (x : Float) : Nat → Expr → Option Float
  | 0, _ => none
  | _ + 1, number v => some v
  | _ + 1, var => some x
  | _ + 1, const c => some c.value
  | n + 1, neg a => do return -(← a.evalWithin x n)
  | n + 1, binary op a b => do return op.apply (← a.evalWithin x n) (← b.evalWithin x n)
  | n + 1, call f a => do return f.apply (← a.evalWithin x n)

/-- The characters of the canonical text, found by calls that are nested at most `n` deep. -/
def charsWithin : Nat → Expr → Option (List Char)
  | 0, _ => none
  | _ + 1, number v => some (numberText v)
  | _ + 1, var => some variableName.toList
  | _ + 1, const c => some c.name.toList
  | n + 1, neg a => do return '-' :: enclose negFloor a (← a.charsWithin n)
  | n + 1, binary op a b => do
    let (left, right) := operandFloors (binary op a b).precedence
    return enclose left a (← a.charsWithin n) ++ (symbol op).toList ++
      enclose right b (← b.charsWithin n)
  | n + 1, call f a => do return f.name.toList ++ '(' :: (← a.charsWithin n) ++ [')']

theorem evalWithin_of_lt {a : Expr} {n : Nat} (x : Float) (h : a.height < n) :
    a.evalWithin x n = some (a.eval x) := by
  induction a generalizing n with
  | number | var | const =>
    cases n with
    | zero => exact absurd h (Nat.not_lt_zero _)
    | succ n => rfl
  | neg a ih | call f a ih =>
    cases n with
    | zero => exact absurd h (Nat.not_lt_zero _)
    | succ n =>
      rw [evalWithin, ih (Nat.lt_of_succ_lt_succ h)]
      rfl
  | binary op a b iha ihb =>
    cases n with
    | zero => exact absurd h (Nat.not_lt_zero _)
    | succ n =>
      obtain ⟨ha, hb⟩ := Nat.max_lt.mp (Nat.lt_of_succ_lt_succ h)
      rw [evalWithin, iha ha, ihb hb]
      rfl

theorem charsWithin_of_lt {a : Expr} {n : Nat} (h : a.height < n) :
    a.charsWithin n = some a.chars := by
  induction a generalizing n with
  | number | var | const =>
    cases n with
    | zero => exact absurd h (Nat.not_lt_zero _)
    | succ n => rfl
  | neg a ih | call f a ih =>
    cases n with
    | zero => exact absurd h (Nat.not_lt_zero _)
    | succ n =>
      rw [charsWithin, ih (Nat.lt_of_succ_lt_succ h)]
      rfl
  | binary op a b iha ihb =>
    cases n with
    | zero => exact absurd h (Nat.not_lt_zero _)
    | succ n =>
      obtain ⟨ha, hb⟩ := Nat.max_lt.mp (Nat.lt_of_succ_lt_succ h)
      rw [charsWithin, iha ha, ihb hb]
      rfl

/-! ## The height of a phrase -/

/-- The greatest height of the phrases of a category that are chains of `k` operators and nest their
tokens `p` deep. -/
def Category.maxHeight (k p : Nat) : Category → Nat
  | expression => p * (p + 2) + k
  | term => p * (p + 1) + k
  | unary | power => p * (p + 1)
  | primary => p * (p + 1) - 1

theorem Category.maxHeight_mono {c : Category} {k p q : Nat} (h : p ≤ q) :
    c.maxHeight k p ≤ c.maxHeight k q := by
  have hsquare (n : Nat) : p * (p + n) ≤ q * (q + n) := Nat.mul_le_mul h (Nat.add_le_add_right h n)
  cases c with
  | expression | term => exact Nat.add_le_add_right (hsquare _) k
  | unary | power => exact hsquare 1
  | primary => exact Nat.sub_le_sub_right (hsquare 1) 1

/-- The operand to the right of an operator of a chain has one level less for its own chain. -/
theorem Category.maxHeight_term_le {k l p q : Nat} (hl : l ≤ q) (h : k + 1 + q ≤ p) :
    term.maxHeight l q ≤ expression.maxHeight k p := by
  have hq : q * (q + 2) ≤ p * (p + 2) := Nat.mul_le_mul (by omega) (by omega)
  simp only [maxHeight]
  linarith

theorem Nests.height_le {c : Category} {ts : List Token.Kind} {a : Expr} {k p : Nat}
    (h : Nests c ts a k p) : a.height ≤ c.maxHeight k p ∧ k ≤ p := by
  induction h with
  | number | var | const => exact ⟨Nat.zero_le _, Nat.le_refl 0⟩
  | @term ts a k p h ih =>
    refine ⟨Nat.le_trans ih.1 ?_, Nat.zero_le p⟩
    simp only [Category.maxHeight]
    linarith [ih.2]
  | @sum ts us a b op k l p q hop ha hb iha ihb =>
    have hp := Nat.le_max_left p (k + 1 + q)
    have hq := Nat.le_max_right p (k + 1 + q)
    have hleft := Nat.le_trans iha.1 (Category.maxHeight_mono hp)
    have hright := Nat.le_trans ihb.1 (Category.maxHeight_term_le ihb.2 hq)
    exact ⟨Nat.succ_le_succ (Nat.max_le.mpr ⟨hleft, hright⟩), by omega⟩
  | @product ts us a b op k l p q hop ha hb iha ihb =>
    have hp := Nat.le_max_left p (k + 1 + q)
    have hq := Nat.le_max_right p (k + 1 + q)
    have hleft := Nat.le_trans iha.1 (Category.maxHeight_mono hp)
    have hright : b.height ≤ Category.term.maxHeight k (max p (k + 1 + q)) :=
      Nat.le_trans (Nat.le_trans ihb.1 (Category.maxHeight_mono (by omega))) (Nat.le_add_right _ k)
    exact ⟨Nat.succ_le_succ (Nat.max_le.mpr ⟨hleft, hright⟩), by omega⟩
  | unary _ ih | power _ ih => exact ⟨ih.1, Nat.zero_le _⟩
  | primary _ ih => exact ⟨Nat.le_trans ih.1 (Nat.sub_le _ 1), Nat.zero_le _⟩
  | @neg ts a k p h ih =>
    refine ⟨?_, Nat.zero_le _⟩
    have hle := ih.1
    simp only [Category.maxHeight, height] at hle ⊢
    nlinarith
  | @pow ts us a b k l p q ha hb iha ihb =>
    have hp := Nat.le_max_left p (1 + q)
    have hq := Nat.le_max_right p (1 + q)
    have hbase := Nat.le_trans iha.1 (Category.maxHeight_mono hp)
    have hexponent := ihb.1
    refine ⟨?_, Nat.zero_le _⟩
    simp only [Category.maxHeight, height] at hbase hexponent ⊢
    have hone : 1 ≤ max p (1 + q) * (max p (1 + q) + 1) := Nat.mul_pos (by omega) (by omega)
    have hdeep : (1 + q) * (1 + q + 1) ≤ max p (1 + q) * (max p (1 + q) + 1) :=
      Nat.mul_le_mul hq (by omega)
    have hexponent : b.height + 1 ≤ max p (1 + q) * (max p (1 + q) + 1) := by nlinarith
    omega
  | @call ts a f k p h ih | @group ts a k p h ih =>
    refine ⟨?_, Nat.zero_le _⟩
    obtain ⟨hle, hk⟩ := ih
    simp only [Category.maxHeight, height] at hle ⊢
    refine Nat.le_sub_of_add_le ?_
    nlinarith

end Expr

/-! ## Accepted expressions -/

namespace Parser.State

variable {s : State} {ts : List Token} {limit : Option Nat} {a : Expr}

theorem finish_eq_ok {offset : Nat} (h : s.finish offset = .ok a) (o : Nat) :
    s.finish o = .ok a := by
  unfold finish at h ⊢
  split at h
  · exact h
  · cases h

/-- What is accepted is read from the tokens before the end, wherever that is. -/
theorem run_eq_ok (h : s.run limit ts = .ok a) :
    ∃ us s', us <+: ts ∧ s.feed limit us = .ok s' ∧ ∀ o, s'.finish o = .ok a := by
  induction ts generalizing s with
  | nil => exact ⟨[], s, List.nil_prefix, rfl, finish_eq_ok h⟩
  | cons t ts ih =>
    rw [run] at h
    split at h
    · exact ⟨[], s, List.nil_prefix, rfl, finish_eq_ok h⟩
    · obtain ⟨s₁, hs, h⟩ := Except.bind_eq_ok.mp h
      obtain ⟨us, s', hus, hfeed, ha⟩ := ih h
      exact ⟨t :: us, s', (List.prefix_cons_inj t).mpr hus, (feed_cons hs).trans hfeed, ha⟩

end Parser.State

namespace Expr

open CurvePlot.Parser

variable {ts : List Token} {a : Expr}

/-- What is accepted is an expression whose tokens are not nested too deeply. -/
theorem nests_of_parse (h : parse ts = .ok a) :
    ∃ us k p, us <+: ts ∧ Nests .expression (us.map (·.kind)) a k p ∧ p ≤ maxDepth := by
  have hrun : ({} : State).run (some maxDepth) ts = .ok a := by
    cases ts with
    | nil => cases h
    | cons t ts =>
      by_cases ht : t.kind = .eof
      · rw [parse, ofTokens_of_eof ht] at h
        cases h
      · rwa [parse, ofTokens_cons ht] at h
  obtain ⟨us, s, hus, hfeed, ha⟩ := State.run_eq_ok hrun
  obtain ⟨k, p, hnests⟩ := ((State.Holds.of_feed hfeed).finish (ha 0)).nests
  obtain ⟨-, -, hpeak, -⟩ := hnests.feed
  refine ⟨us, k, p, hus, hnests, ?_⟩
  rw [← hpeak]
  rcases State.feed_some (s := {}) us (Nat.zero_le maxDepth) with ⟨hp, -⟩ | ⟨-, o, herror⟩
  · exact hp
  · rw [hfeed] at herror
    cases herror

/-- **The limit on the depth bounds the height.** On no way from the root of an accepted tree to a leaf
are there more than `maxDepth * (maxDepth + 3)` operators and calls. So evaluating the tree and writing
it nest a bounded number of calls, however long the input was. -/
theorem parse_height (h : parse ts = .ok a) :
    (∀ nodes, a.Path nodes → nodes.length ≤ maxDepth * (maxDepth + 3)) ∧
      ∀ n, maxDepth * (maxDepth + 3) < n →
        (∀ x, a.evalWithin x n = some (a.eval x)) ∧ a.charsWithin n = some a.chars := by
  obtain ⟨us, k, p, -, hnests, hp⟩ := nests_of_parse h
  have hheight : a.height ≤ maxDepth * (maxDepth + 3) := by
    obtain ⟨hle, hk⟩ := hnests.height_le
    calc
      a.height ≤ p * (p + 2) + k := hle
      _ ≤ p * (p + 3) := by linarith
      _ ≤ maxDepth * (maxDepth + 3) := Nat.mul_le_mul hp (Nat.add_le_add_right hp 3)
  refine ⟨fun nodes hnodes => Nat.le_trans hnodes.length_le hheight, fun n hn => ?_⟩
  have hlt := Nat.lt_of_le_of_lt hheight hn
  exact ⟨fun x => evalWithin_of_lt x hlt, charsWithin_of_lt hlt⟩

/-- No token of `sin(x)^x * x + x` has more than one operator or parenthesis around it, but three
operators and a call are on the way to its first variable. -/
theorem parse_height_chains :
    let ts : List Token := [⟨.ident "sin", 0⟩, ⟨.lparen, 3⟩, ⟨.ident "x", 4⟩, ⟨.rparen, 5⟩, ⟨.caret, 6⟩,
      ⟨.ident "x", 7⟩, ⟨.star, 9⟩, ⟨.ident "x", 11⟩, ⟨.plus, 13⟩, ⟨.ident "x", 15⟩, ⟨.eof, 16⟩]
    let power : Expr := .binary .pow (.call .sin .var) .var
    let product : Expr := .binary .mul power .var
    let a : Expr := .binary .add product .var
    parse ts = .ok a ∧ a.Path [a, product, power, .call .sin .var] ∧
      (∀ nodes, a.Path nodes → nodes.length ≤ 66304) ∧
        (∀ x, a.evalWithin x 66305 = some (a.eval x)) ∧ a.charsWithin 66305 = some a.chars := by
  intro ts power product a
  have h : parse ts = .ok a := by decide +kernel
  have hpath : a.Path [a, product, power, .call .sin .var] := .left (.left (.left (.call .var)))
  obtain ⟨hlength, hwithin⟩ := parse_height h
  exact ⟨h, hpath, hlength, hwithin 66305 (by decide)⟩

end Expr

end CurvePlot
