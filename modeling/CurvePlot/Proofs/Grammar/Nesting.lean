import CurvePlot.Proofs.Grammar

/-! How deep the tokens of a phrase are nested.

`Nests c ts a k p` is `Derives c ts a` with two numbers: the operators of the chain that a sum or a
product is made of are `k`, and no token of the phrase has more than `p` operators and parentheses
of the phrase around it. An operator of a chain counts for all operands to its right, since the
chain leans to the left and grows with each of them. -/

namespace CurvePlot.Expr

/-- The phrase `ts` stands for the tree `a`, is a chain of `k` operators and nests its tokens `p`
deep. -/
inductive Nests : Category → List Token.Kind → Expr → Nat → Nat → Prop where
  | term {ts a k p} : Nests .term ts a k p → Nests .expression ts a 0 p
  | sum {ts us a b op k l p q} : op = .add ∨ op = .sub → Nests .expression ts a k p →
      Nests .term us b l q →
      Nests .expression (ts ++ op.kind :: us) (.binary op a b) (k + 1) (max p (k + 1 + q))
  | unary {ts a k p} : Nests .unary ts a k p → Nests .term ts a 0 p
  | product {ts us a b op k l p q} : op = .mul ∨ op = .div → Nests .term ts a k p →
      Nests .unary us b l q →
      Nests .term (ts ++ op.kind :: us) (.binary op a b) (k + 1) (max p (k + 1 + q))
  | power {ts a k p} : Nests .power ts a k p → Nests .unary ts a 0 p
  | neg {ts a k p} : Nests .unary ts a k p → Nests .unary (.minus :: ts) (.neg a) 0 (1 + p)
  | primary {ts a k p} : Nests .primary ts a k p → Nests .power ts a 0 p
  | pow {ts us a b k l p q} : Nests .primary ts a k p → Nests .unary us b l q →
      Nests .power (ts ++ .caret :: us) (.binary .pow a b) 0 (max p (1 + q))
  | number {v} : Nests .primary [.number v] (.number v) 0 0
  | var : Nests .primary [.ident variableName] .var 0 0
  | const {c} : Nests .primary [.ident c.name] (.const c) 0 0
  | call {ts a f k p} : Nests .expression ts a k p →
      Nests .primary (.ident f.name :: .lparen :: (ts ++ [.rparen])) (.call f a) 0 (1 + p)
  | group {ts a k p} : Nests .expression ts a k p →
      Nests .primary (.lparen :: (ts ++ [.rparen])) a 0 (1 + p)

variable {c d : Category} {ts : List Token.Kind} {a : Expr} {k p : Nat}

theorem Nests.derives (h : Nests c ts a k p) : Derives c ts a := by
  induction h with
  | term _ ih => exact .term ih
  | sum hop _ _ iha ihb => exact .sum hop iha ihb
  | unary _ ih => exact .unary ih
  | product hop _ _ iha ihb => exact .product hop iha ihb
  | power _ ih => exact .power ih
  | neg _ ih => exact .neg ih
  | primary _ ih => exact .primary ih
  | pow _ _ iha ihb => exact .pow iha ihb
  | number => exact .number
  | var => exact .var
  | const => exact .const
  | call _ ih => exact .call ih
  | group _ ih => exact .group ih

theorem Derives.nests (h : Derives c ts a) : ∃ k p, Nests c ts a k p := by
  induction h with
  | term _ ih => obtain ⟨k, p, ih⟩ := ih; exact ⟨_, _, .term ih⟩
  | sum hop _ _ iha ihb =>
    obtain ⟨k, p, iha⟩ := iha
    obtain ⟨l, q, ihb⟩ := ihb
    exact ⟨_, _, .sum hop iha ihb⟩
  | unary _ ih => obtain ⟨k, p, ih⟩ := ih; exact ⟨_, _, .unary ih⟩
  | product hop _ _ iha ihb =>
    obtain ⟨k, p, iha⟩ := iha
    obtain ⟨l, q, ihb⟩ := ihb
    exact ⟨_, _, .product hop iha ihb⟩
  | power _ ih => obtain ⟨k, p, ih⟩ := ih; exact ⟨_, _, .power ih⟩
  | neg _ ih => obtain ⟨k, p, ih⟩ := ih; exact ⟨_, _, .neg ih⟩
  | primary _ ih => obtain ⟨k, p, ih⟩ := ih; exact ⟨_, _, .primary ih⟩
  | pow _ _ iha ihb =>
    obtain ⟨k, p, iha⟩ := iha
    obtain ⟨l, q, ihb⟩ := ihb
    exact ⟨_, _, .pow iha ihb⟩
  | number => exact ⟨_, _, .number⟩
  | var => exact ⟨_, _, .var⟩
  | const => exact ⟨_, _, .const⟩
  | call _ ih => obtain ⟨k, p, ih⟩ := ih; exact ⟨_, _, .call ih⟩
  | group _ ih => obtain ⟨k, p, ih⟩ := ih; exact ⟨_, _, .group ih⟩

namespace Nests

/-! ## Tight phrases as loose ones

The chain of a phrase that is read as one of a looser category is empty. -/

theorem toPower (h : Nests c ts a k p) (hc : 4 ≤ c.floor) :
    Nests .power ts a (if c = .power then k else 0) p := by
  cases c with
  | power => exact h
  | primary => exact .primary h
  | _ => exact absurd hc (by decide)

theorem toUnary (h : Nests c ts a k p) (hc : 3 ≤ c.floor) :
    Nests .unary ts a (if c = .unary then k else 0) p := by
  cases c with
  | unary => exact h
  | power | primary => exact .power (h.toPower (by decide))
  | _ => exact absurd hc (by decide)

theorem toTerm (h : Nests c ts a k p) (hc : 2 ≤ c.floor) :
    Nests .term ts a (if c = .term then k else 0) p := by
  cases c with
  | term => exact h
  | unary | power | primary => exact .unary (h.toUnary (by decide))
  | _ => exact absurd hc (by decide)

theorem toExpression (h : Nests c ts a k p) :
    Nests .expression ts a (if c = .expression then k else 0) p := by
  cases c with
  | expression => exact h
  | _ => exact .term (h.toTerm (by decide))

/-- A phrase of a tight category is one of every looser category. -/
theorem lift (h : Nests c ts a k p) (hd : d.floor ≤ c.floor) :
    Nests d ts a (if c = d then k else 0) p := by
  cases d with
  | expression => exact h.toExpression
  | term => exact h.toTerm hd
  | unary => exact h.toUnary hd
  | power => exact h.toPower hd
  | primary =>
    cases c with
    | primary => exact h
    | _ => exact absurd hd (by decide)

end Nests

end CurvePlot.Expr
