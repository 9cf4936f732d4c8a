import CurvePlot.Curve
import CurvePlot.Proofs.Formula.Canonical

/-! Copies of formulas.

A copy is read from the canonical text, so the tree of a formula can be copied if and only if the
tokens of that text are not nested too deeply (`copies`). Not every formula that was read has such a
tree: parentheses count once for all that they enclose, and the chain of operators that is left
without them counts with its length (`twoChains`). -/

namespace CurvePlot

namespace Formula

variable {g : Glyph} {s : String} {f : Formula}

theorem withGlyph_of_le (hf : f.tree.Plain) (h : f.tree.nesting ≤ Expr.maxDepth) (m : Glyph) :
    f.withGlyph m = .ok ⟨f.tree, m⟩ := by
  rw [withGlyph, parse_of_readsBack hf ((readsBack_iff hf).mpr h)]
  rfl

theorem withGlyph_of_gt (hf : f.tree.Plain) (h : Expr.maxDepth < f.tree.nesting) :
    ∃ o, ∀ m, f.withGlyph m = .error ⟨f.canonical, .parse (.tooDeep o)⟩ := by
  obtain ⟨o, ho⟩ := parse_of_not_readsBack hf (mt (readsBack_iff hf).mp (Nat.not_le_of_lt h))
  refine ⟨o, fun m => ?_⟩
  rw [withGlyph, ho]
  rfl

theorem copy_eq_ok {f' : Formula} (hf : f.tree.Plain) :
    f.copy = .ok f' ↔ f.ReadsBack ∧ f' = f := by
  rw [copy, withGlyph, Except.mapError_eq_ok]
  by_cases h : f.ReadsBack
  · rw [parse_of_readsBack hf h, Except.ok.injEq, eq_comm]
    exact (and_iff_right h).symm
  · obtain ⟨o, ho⟩ := parse_of_not_readsBack hf h
    rw [ho]
    exact ⟨nofun, fun h' => absurd h'.1 h⟩

/-- **Which copies fail.** A formula that was read is copied, with any minus sign, if its canonical
text is not nested too deeply, and else every copy fails for that reason. -/
theorem copies (h : parse g s = .ok f) :
    (f.tree.nesting ≤ Expr.maxDepth →
      (∀ m, f.withGlyph m = .ok ⟨f.tree, m⟩) ∧ f.copy = .ok f ∧
        ∀ c : Curve, c.formula = f → c.copy = .ok c) ∧
      (Expr.maxDepth < f.tree.nesting →
        ∃ o, (∀ m, f.withGlyph m = .error ⟨f.canonical, .parse (.tooDeep o)⟩) ∧
          f.copy = .error ⟨f.canonical, .parse (.tooDeep o)⟩ ∧
            ∀ c : Curve, c.formula = f →
              c.copy = .error ⟨f.canonical, .parse (.tooDeep o)⟩) := by
  have hf := plain_of_parse h
  refine ⟨fun hle => ?_, fun hgt => ?_⟩
  · have hcopy : f.copy = .ok f := withGlyph_of_le hf hle f.glyph
    refine ⟨withGlyph_of_le hf hle, hcopy, ?_⟩
    rintro c rfl
    rw [Curve.copy, hcopy]
    rfl
  · obtain ⟨o, ho⟩ := withGlyph_of_gt hf hgt
    refine ⟨o, ho, ho f.glyph, ?_⟩
    rintro c rfl
    rw [Curve.copy, copy, ho]
    rfl

theorem copies_minus :
    let f : Formula := ⟨.binary .sub .var (.number 1), .hyphen⟩
    parse .hyphen "x - 1" = .ok f ∧ f.tree.nesting ≤ Expr.maxDepth ∧
      f.withGlyph (.ofChar '−') = .ok ⟨f.tree, .ofChar '−'⟩ ∧ f.copy = .ok f := by
  intro f
  have h : parse .hyphen "x - 1" = .ok f := Except.eq_ok_of_toOption (by decide +kernel)
  have hnest : f.tree.nesting ≤ Expr.maxDepth := by decide
  have hcopies := (copies h).1 hnest
  exact ⟨h, hnest, hcopies.1 _, hcopies.2.1⟩

/-! ## A formula without copies -/

/-- `a + x + … + x`, with `n` additions. -/
def addVars (a : Expr) : Nat → Expr
  | 0 => a
  | n + 1 => .binary .add (addVars a n) .var

/-- The characters `+x`, written `n` times. -/
def plusVars : Nat → List Char
  | 0 => []
  | n + 1 => plusVars n ++ ['+', 'x']

/-- The tokens of `plusVars`. -/
def plusVarTokens : Nat → List Token.Kind
  | 0 => []
  | n + 1 => plusVarTokens n ++ [.plus, .ident Expr.variableName]

theorem ends_plusVars {rest : List Char} (n : Nat) (h : Ends rest) : Ends (plusVars n ++ rest) := by
  induction n generalizing rest with
  | zero => exact h
  | succ n ih =>
    rw [plusVars, List.append_assoc]
    exact ih (.cons rfl (by decide))

theorem lexed_plusVars {rest : List Char} (n : Nat) (h : Ends rest) :
    Lexed (plusVars n ++ rest) (plusVarTokens n) rest := by
  induction n generalizing rest with
  | zero => exact .done
  | succ n ih =>
    rw [plusVars, List.append_assoc]
    refine (ih (.cons rfl (by decide))).append ?_
    exact (Expr.lexed_char rfl).append (Expr.lexed_name (s := Expr.variableName) (by decide) h)

theorem nests_addVars {ts : List Token.Kind} {a : Expr} {p : Nat}
    (h : Expr.Nests .expression ts a 0 p) (n : Nat) :
    Expr.Nests .expression (ts ++ plusVarTokens n) (addVars a n) n (max p n) := by
  induction n with
  | zero => simpa [plusVarTokens, addVars] using h
  | succ n ih =>
    have hsum := Expr.Nests.sum (.inl rfl) ih (.unary (.power (.primary .var)))
    have hmax : max p (n + 1) = max (max p n) (n + 1 + 0) := by omega
    rw [plusVarTokens, addVars, ← List.append_assoc, hmax]
    exact hsum

theorem addVars_add (a : Expr) (n m : Nat) : addVars (addVars a n) m = addVars a (n + m) := by
  induction m with
  | zero => rfl
  | succ m ih => rw [addVars, ih]; rfl

theorem chain_addVars (n : Nat) : (addVars .var n).chain = n := by
  induction n with
  | zero => rfl
  | succ n ih =>
    cases n with
    | zero => rfl
    | succ n => exact congrArg (· + 1) ih

theorem nesting_addVars (n : Nat) : (addVars .var n).nesting = n := by
  induction n with
  | zero => rfl
  | succ n ih =>
    have hleft : Expr.encloseDepth 1 (addVars .var n) n = n := by
      cases n <;> rfl
    calc
      (addVars .var (n + 1)).nesting = max (Expr.encloseDepth 1 (addVars .var n)
          (addVars .var n).nesting) ((addVars .var (n + 1)).chain + 0) := rfl
      _ = n + 1 := by rw [ih, hleft, chain_addVars]; omega

/-- Two chains of additions, the first one in parentheses. -/
def twoChains (n m : Nat) : String :=
  String.ofList ('(' :: 'x' :: plusVars n ++ ')' :: plusVars m)

theorem lexed_twoChains (n m : Nat) :
    Lexed (twoChains n m).toList
      (.lparen :: ([.ident Expr.variableName] ++ plusVarTokens n ++ [.rparen]) ++ plusVarTokens m)
      [] := by
  have hx : Lexed ('x' :: (plusVars n ++ ')' :: plusVars m)) [.ident Expr.variableName]
      (plusVars n ++ ')' :: plusVars m) :=
    Expr.lexed_name (s := Expr.variableName) (by decide) (ends_plusVars n Expr.ends_rparen)
  have hm : Lexed (plusVars m) (plusVarTokens m) [] := by
    have h := lexed_plusVars m .nil
    rwa [List.append_nil] at h
  have h := (Expr.lexed_char (rfl : Token.Kind.ofChar? '(' = some .lparen)).append
    (hx.append ((lexed_plusVars n Expr.ends_rparen).append ((Expr.lexed_char rfl).append hm)))
  rw [twoChains, String.toList_ofList]
  simpa using h

theorem nests_twoChains (n m : Nat) :
    Expr.Nests .expression
      (.lparen :: ([.ident Expr.variableName] ++ plusVarTokens n ++ [.rparen]) ++ plusVarTokens m)
      (addVars .var (n + m)) m (max (1 + n) m) := by
  have hx : Expr.Nests .expression [.ident Expr.variableName] .var 0 0 :=
    .term (.unary (.power (.primary .var)))
  have hn := nests_addVars hx n
  rw [Nat.zero_max] at hn
  rw [← addVars_add]
  exact nests_addVars (Expr.Nests.group hn).toExpression m

theorem parse_twoChains {n m : Nat} (hn : n < Expr.maxDepth) (hm : m ≤ Expr.maxDepth) :
    parse .hyphen (twoChains n m) = .ok ⟨addVars .var (n + m), .hyphen⟩ := by
  rw [parse_eq, Glyph.toCanonical_hyphen]
  rcases Expr.ofText_of_nests (lexed_twoChains n m) (nests_twoChains n m) with ⟨-, h⟩ | ⟨h, -⟩
  · rw [h]
    rfl
  · omega

/-- A formula that was read, and that no copy can be made of. -/
theorem copy_twoChains :
    ∃ f o, parse .hyphen (twoChains 200 200) = .ok f ∧
      (∀ m, f.withGlyph m = .error ⟨f.canonical, .parse (.tooDeep o)⟩) ∧
        f.copy = .error ⟨f.canonical, .parse (.tooDeep o)⟩ := by
  have h : parse .hyphen (twoChains 200 200) = .ok ⟨addVars .var 400, .hyphen⟩ :=
    parse_twoChains (by decide) (by decide)
  have hnest : Expr.maxDepth < (addVars .var 400).nesting := by
    rw [nesting_addVars]
    decide
  obtain ⟨o, ho⟩ := withGlyph_of_gt (plain_of_parse h) hnest
  exact ⟨_, o, h, ho, ho .hyphen⟩

end Formula

end CurvePlot
