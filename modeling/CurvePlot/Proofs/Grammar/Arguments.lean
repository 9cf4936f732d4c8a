import CurvePlot.Proofs.Grammar

/-! The shape of phrases whose calls have any number of arguments.

The grammar gives a function one argument. That a call has more of them, or none, is known where it
ends, and up to there it is read as other calls are:

    primary := NUMBER | "x" | CONSTANT | FUNCTION "(" [ expression { "," expression } ] ")"
             | "(" expression ")"

`Shape` is the grammar with this rule. Its phrases have no trees. `Viable` lists can still become an
expression. -/

namespace CurvePlot.Expr

/-- The tokens have the shape of a phrase of the category `c`. -/
inductive Shape : Category → List Token.Kind → Prop where
  | term {ts} : Shape .term ts → Shape .expression ts
  | sum {ts us} {op : BinOp} : op = .add ∨ op = .sub → Shape .expression ts → Shape .term us →
      Shape .expression (ts ++ op.kind :: us)
  | unary {ts} : Shape .unary ts → Shape .term ts
  | product {ts us} {op : BinOp} : op = .mul ∨ op = .div → Shape .term ts → Shape .unary us →
      Shape .term (ts ++ op.kind :: us)
  | power {ts} : Shape .power ts → Shape .unary ts
  | neg {ts} : Shape .unary ts → Shape .unary (.minus :: ts)
  | primary {ts} : Shape .primary ts → Shape .power ts
  | pow {ts us} : Shape .primary ts → Shape .unary us → Shape .power (ts ++ .caret :: us)
  | number {v} : Shape .primary [.number v]
  | var : Shape .primary [.ident variableName]
  | const {c : Constant} : Shape .primary [.ident c.name]
  | call {f : Func} {args : List (List Token.Kind)} : (∀ ts ∈ args, Shape .expression ts) →
      Shape .primary (.ident f.name :: .lparen :: ([.comma].intercalate args ++ [.rparen]))
  | group {ts} : Shape .expression ts → Shape .primary (.lparen :: (ts ++ [.rparen]))

/-- The tokens begin an expression, with the end of the input behind it. -/
def Viable (ts : List Token.Kind) : Prop := ∃ us, Shape .expression us ∧ ts <+: us ++ [.eof]

variable {c : Category} {k : Token.Kind} {ts us : List Token.Kind} {args : List (List Token.Kind)}
  {a : Expr}

/-! ## Lists of arguments -/

theorem mem_of_mem_arguments (h : k ∈ [Token.Kind.comma].intercalate args) :
    k = .comma ∨ ∃ ts ∈ args, k ∈ ts := by
  induction args with
  | nil => cases h
  | cons ts args ih =>
    by_cases hargs : args = []
    · rw [hargs, List.intercalate_singleton] at h
      exact .inr ⟨ts, List.mem_cons_self, h⟩
    · rw [List.intercalate_cons_of_ne_nil hargs, List.append_assoc] at h
      obtain h | h := List.mem_append.mp h
      · exact .inr ⟨ts, List.mem_cons_self, h⟩
      obtain rfl | h := List.mem_cons.mp h
      · exact .inl rfl
      obtain h | ⟨us, hus, h⟩ := ih h
      · exact .inl h
      · exact .inr ⟨us, List.mem_cons_of_mem _ hus, h⟩

/-- The arguments before the last one have a comma behind each. -/
theorem arguments_concat :
    [Token.Kind.comma].intercalate (args ++ [ts]) = args.flatMap (· ++ [.comma]) ++ ts := by
  induction args with
  | nil => exact List.intercalate_singleton
  | cons us args ih =>
    have hne : args ++ [ts] ≠ [] := List.append_ne_nil_of_right_ne_nil _ (List.cons_ne_nil _ _)
    rw [List.cons_append, List.intercalate_cons_of_ne_nil hne, ih, List.flatMap_cons,
      List.append_assoc _ _ ts]

/-! ## Shapes -/

/-- What the grammar derives has its shape. -/
theorem Derives.shape (h : Derives c ts a) : Shape c ts := by
  induction h with
  | term _ ih => exact .term ih
  | sum hop _ _ iha ihb => exact .sum hop iha ihb
  | unary _ ih => exact .unary ih
  | product hop _ _ iha ihb => exact .product hop iha ihb
  | power _ ih => exact .power ih
  | neg _ ih => exact .neg ih
  | primary _ ih => exact .primary ih
  | pow _ _ iha ihb => exact .pow iha ihb
  | number => exact .number
  | var => exact .var
  | const => exact .const
  | @call ts a f _ ih =>
    have hargs : [Token.Kind.comma].intercalate [ts] = ts := List.intercalate_singleton
    have hcall : Shape .primary
        (.ident f.name :: .lparen :: ([Token.Kind.comma].intercalate [ts] ++ [.rparen])) :=
      .call (List.forall_mem_singleton.mpr ih)
    rwa [hargs] at hcall
  | group _ ih => exact .group ih

namespace Shape

theorem eof_not_mem (h : Shape c ts) : .eof ∉ ts := by
  induction h with
  | term _ ih | unary _ ih | power _ ih | primary _ ih => exact ih
  | sum hop _ _ iha ihb | product hop _ _ iha ihb =>
    rcases hop with rfl | rfl <;> simp [BinOp.kind, iha, ihb]
  | pow _ _ iha ihb => simp [iha, ihb]
  | neg _ ih | group _ ih => simp [ih]
  | number | var | const => simp
  | @call f args _ ih =>
    have hargs : Token.Kind.eof ∉ [Token.Kind.comma].intercalate args := by
      intro h
      obtain h | ⟨ts, hts, h⟩ := mem_of_mem_arguments h
      · cases h
      · exact ih ts hts h
    simp [hargs]

/-! ## Operators behind a phrase -/

/-- A power takes the last operand of a phrase for its base. -/
theorem extend_pow (h : Shape c ts) (hc : c ≠ .primary) (hus : Shape .unary us) :
    Shape c (ts ++ .caret :: us) := by
  induction h with
  | term _ ih => exact .term (ih nofun)
  | sum hop ha _ _ ihb =>
    rw [List.append_assoc, List.cons_append]
    exact .sum hop ha (ihb nofun)
  | unary _ ih => exact .unary (ih nofun)
  | product hop ha _ _ ihb =>
    rw [List.append_assoc, List.cons_append]
    exact .product hop ha (ihb nofun)
  | power _ ih => exact .power (ih nofun)
  | neg _ ih => exact .neg (ih nofun)
  | primary h => exact .pow h hus
  | pow ha _ _ ihb =>
    rw [List.append_assoc, List.cons_append]
    exact .pow ha (ihb nofun)
  | number | var | const | call | group => exact absurd rfl hc

/-- A product takes the last term of an expression for its left operand. -/
theorem extend_product {op : BinOp} (h : Shape .expression ts) (hop : op = .mul ∨ op = .div)
    (hus : Shape .unary us) : Shape .expression (ts ++ op.kind :: us) := by
  cases h with
  | term h => exact .term (.product hop h hus)
  | sum hop' ha hb =>
    rw [List.append_assoc, List.cons_append]
    exact .sum hop' ha (.product hop hb hus)

/-- Behind an expression, every operator and an operand make an expression again. -/
theorem extend (h : Shape .expression ts) (op : BinOp) (hus : Shape .unary us) :
    Shape .expression (ts ++ op.kind :: us) := by
  cases op with
  | add => exact .sum (.inl rfl) h (.unary hus)
  | sub => exact .sum (.inr rfl) h (.unary hus)
  | mul => exact h.extend_product (.inl rfl) hus
  | div => exact h.extend_product (.inr rfl) hus
  | pow => exact h.extend_pow nofun hus

end Shape

end CurvePlot.Expr
