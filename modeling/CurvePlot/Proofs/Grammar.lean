import CurvePlot.Expr.Printer
import CurvePlot.Token

/-! The grammar of expressions, as a relation between lists of tokens and trees.

    expression := term | expression ( "+" | "-" ) term
    term       := unary | term ( "*" | "/" ) unary
    unary      := power | "-" unary
    power      := primary | primary "^" unary
    primary    := NUMBER | "x" | CONSTANT | FUNCTION "(" expression ")" | "(" expression ")"

The repetitions `term { ( "+" | "-" ) term }` and `unary { ( "*" | "/" ) unary }` are left recursive
here, which is to say that their trees lean to the left. Positions play no part: a phrase is a list
of kinds.

`Derives` is the relation, for all five categories at once. -/

namespace CurvePlot

/-- The token of an operator. -/
def BinOp.kind : BinOp → Token.Kind
  | add => .plus
  | sub => .minus
  | mul => .star
  | div => .slash
  | pow => .caret

namespace Expr

/-- The categories of phrases, the loosest one first. -/
inductive Category where
  | expression
  | term
  | unary
  | power
  | primary
deriving DecidableEq, Repr

/-- The least precedence of the trees that a category writes without parentheses. -/
def Category.floor : Category → Nat
  | expression => 1
  | term => 2
  | unary => 3
  | power => 4
  | primary => 5

/-- The phrase `ts` of the category `c` stands for the tree `a`. -/
inductive Derives : Category → List Token.Kind → Expr → Prop where
  | term {ts a} : Derives .term ts a → Derives .expression ts a
  | sum {ts us a b op} : op = .add ∨ op = .sub → Derives .expression ts a → Derives .term us b →
      Derives .expression (ts ++ op.kind :: us) (.binary op a b)
  | unary {ts a} : Derives .unary ts a → Derives .term ts a
  | product {ts us a b op} : op = .mul ∨ op = .div → Derives .term ts a → Derives .unary us b →
      Derives .term (ts ++ op.kind :: us) (.binary op a b)
  | power {ts a} : Derives .power ts a → Derives .unary ts a
  | neg {ts a} : Derives .unary ts a → Derives .unary (.minus :: ts) (.neg a)
  | primary {ts a} : Derives .primary ts a → Derives .power ts a
  | pow {ts us a b} : Derives .primary ts a → Derives .unary us b →
      Derives .power (ts ++ .caret :: us) (.binary .pow a b)
  | number {v} : Derives .primary [.number v] (.number v)
  | var : Derives .primary [.ident variableName] .var
  | const {c} : Derives .primary [.ident c.name] (.const c)
  | call {ts a f} : Derives .expression ts a →
      Derives .primary (.ident f.name :: .lparen :: (ts ++ [.rparen])) (.call f a)
  | group {ts a} : Derives .expression ts a → Derives .primary (.lparen :: (ts ++ [.rparen])) a

namespace Derives

variable {c : Category} {ts : List Token.Kind} {a : Expr}

theorem ne_nil (h : Derives c ts a) : ts ≠ [] := by
  induction h with
  | term _ ih | unary _ ih | power _ ih | primary _ ih => exact ih
  | sum | product | pow => exact List.append_ne_nil_of_right_ne_nil _ (List.cons_ne_nil _ _)
  | neg | number | var | const | call | group => exact List.cons_ne_nil _ _

theorem eof_not_mem (h : Derives c ts a) : .eof ∉ ts := by
  induction h with
  | term _ ih | unary _ ih | power _ ih | primary _ ih => exact ih
  | sum hop _ _ iha ihb | product hop _ _ iha ihb =>
    rcases hop with rfl | rfl <;> simp [BinOp.kind, iha, ihb]
  | pow _ _ iha ihb => simp [iha, ihb]
  | neg _ ih | call _ ih | group _ ih => simp [ih]
  | number | var | const => simp

end Derives

end Expr

end CurvePlot
