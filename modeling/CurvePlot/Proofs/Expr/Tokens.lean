import CurvePlot.Expr.Printer
import CurvePlot.Proofs.Grammar.Nesting

/-! The tokens of the canonical text.

`Expr.tokens` puts parentheses where `Expr.chars` does, but writes every literal as one token. They
are a phrase for the tree, of the category that its precedence tells (`nests_tokens`), and how deep
they are nested is computed by `nesting`. -/

namespace CurvePlot.Expr

/-- The category of the phrases that a tree has without parentheses around it. -/
def category : Expr → Category
  | binary .add .. | binary .sub .. => .expression
  | binary .mul .. | binary .div .. => .term
  | neg _ => .unary
  | binary .pow .. => .power
  | number _ | var | const _ | call .. => .primary

theorem floor_category (a : Expr) : a.category.floor = a.precedence.1 := by
  cases a with
  | binary op => cases op <;> rfl
  | _ => rfl

/-- Parentheses around the tokens of an operand below its floor. -/
def encloseTokens (floor : Nat) (a : Expr) (ts : List Token.Kind) : List Token.Kind :=
  if a.precedence.1 < floor then .lparen :: (ts ++ [.rparen]) else ts

/-- The tokens of the canonical text. -/
def tokens : Expr → List Token.Kind
  | number v => [.number v]
  | var => [.ident variableName]
  | const c => [.ident c.name]
  | neg a => .minus :: encloseTokens negFloor a a.tokens
  | binary op a b =>
    let (left, right) := operandFloors (binary op a b).precedence
    encloseTokens left a a.tokens ++ op.kind :: encloseTokens right b b.tokens
  | call f a => .ident f.name :: .lparen :: (a.tokens ++ [.rparen])

/-- The operators that a sum or product is a chain of. -/
def chain : Expr → Nat
  | binary .pow .. => 0
  | binary op a b => (if a.category = (binary op a b).category then a.chain else 0) + 1
  | _ => 0

/-- The depth of an operand, with the parentheses around it if it is below its floor. -/
def encloseDepth (floor : Nat) (a : Expr) (n : Nat) : Nat :=
  if a.precedence.1 < floor then 1 + n else n

/-- The most operators and parentheses around a token of the canonical text. -/
def nesting : Expr → Nat
  | number _ | var | const _ => 0
  | neg a => 1 + encloseDepth negFloor a a.nesting
  | binary op a b =>
    let (left, right) := operandFloors (binary op a b).precedence
    let around := if op = .pow then 1 else (binary op a b).chain
    max (encloseDepth left a a.nesting) (around + encloseDepth right b b.nesting)
  | call _ a => 1 + a.nesting

/-- An operand with its parentheses is a phrase of the category that its floor stands for. -/
theorem nests_enclose {a : Expr} {ts : List Token.Kind} {p : Nat}
    (h : Nests a.category ts a a.chain p) (d : Category) :
    Nests d (encloseTokens d.floor a ts) a (if a.category = d then a.chain else 0)
      (encloseDepth d.floor a p) := by
  rw [encloseTokens, encloseDepth, ← floor_category]
  split
  · next hlt =>
    have hne : a.category ≠ d := by
      rintro rfl
      exact Nat.lt_irrefl _ hlt
    have hgroup := (Nests.group h.toExpression).lift (d := d) (by cases d <;> decide)
    rw [if_neg hne]
    simpa using hgroup
  · next hle => exact h.lift (Nat.le_of_not_lt hle)

/-- The tokens of the canonical text are a phrase for the tree. -/
theorem nests_tokens (a : Expr) : Nests a.category a.tokens a a.chain a.nesting := by
  induction a with
  | number v => exact .number
  | var => exact .var
  | const c => exact .const
  | neg a ih => exact .neg (nests_enclose ih .unary)
  | binary op a b iha ihb =>
    cases op with
    | add => exact .sum (.inl rfl) (nests_enclose iha .expression) (nests_enclose ihb .term)
    | sub => exact .sum (.inr rfl) (nests_enclose iha .expression) (nests_enclose ihb .term)
    | mul => exact .product (.inl rfl) (nests_enclose iha .term) (nests_enclose ihb .unary)
    | div => exact .product (.inr rfl) (nests_enclose iha .term) (nests_enclose ihb .unary)
    | pow => exact .pow (nests_enclose iha .primary) (nests_enclose ihb .unary)
  | call f a ih => exact .call ih.toExpression

end CurvePlot.Expr
