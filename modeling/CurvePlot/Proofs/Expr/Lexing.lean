import CurvePlot.Proofs.Expr.Normal
import CurvePlot.Proofs.Numeral.Layout

/-! The characters of the canonical text and its tokens.

Each part of the text is read as its tokens with the rest of the text in view, which is what keeps
neighbouring parts from being read as one. Together they show that the canonical text has the
tokens of the tree that is written (`lexed_chars`). -/

namespace CurvePlot.Expr

open Binary64 Numeral

variable {c : Char} {cs rest : List Char} {kind : Token.Kind} {v : Float}

/-! ## Operators and parentheses -/

theorem lexed_char (h : Token.Kind.ofChar? c = some kind) : Lexed (c :: cs) [kind] cs :=
  .token (Lexeme.read_symbol h) .done

theorem lexed_symbol (op : BinOp) : Lexed ((symbol op).toList ++ rest) [op.kind] rest := by
  have hspace {c : Char} {kind : Token.Kind} (h : Token.Kind.ofChar? c = some kind) :
      Lexed (' ' :: c :: ' ' :: rest) [kind] rest :=
    .blank rfl (.token (Lexeme.read_symbol h) (.blank rfl .done))
  cases op with
  | add => exact hspace rfl
  | sub => exact hspace rfl
  | mul => exact hspace rfl
  | div => exact hspace rfl
  | pow => exact lexed_char rfl

theorem ends_symbol (op : BinOp) : Ends ((symbol op).toList ++ rest) := by
  cases op <;> exact .cons rfl (by decide)

theorem ends_rparen : Ends (')' :: rest) := .cons rfl (by decide)

/-! ## Names -/

/-- A letter, and letters and digits behind it. -/
def isName (s : String) : Bool :=
  match s.toList with
  | [] => false
  | c :: cs => c.isAlpha && cs.all Char.isAlphanum

theorem lexed_name {s : String} (hs : isName s = true) (h : Ends rest) :
    Lexed (s.toList ++ rest) [.ident s] rest := by
  rw [isName] at hs
  split at hs
  · cases hs
  · next c cs hcs =>
    rw [Bool.and_eq_true, List.all_eq_true] at hs
    have hread := Lexeme.read_name hs.1 hs.2 h.isAlphanum
    rw [← hcs, String.ofList_toList] at hread
    exact .token hread .done

theorem isName_const (c : Constant) : isName c.name = true := by
  cases c <;> decide

theorem isName_func (f : Func) : isName f.name = true := by
  cases f <;> decide

/-! ## Literals -/

theorem lexed_number {d : Decimal} (h : Scans cs d rest) (hd : d.toFloat.isFinite = true) :
    Lexed (cs ++ rest) [.number d.toFloat] rest := by
  obtain ⟨d', hscan, hd'⟩ := h
  rw [← hd'] at hd ⊢
  exact .token (Lexeme.read_number hscan hd) .done

/-- Both layouts of a finite literal, with a sign in front of it or not. -/
theorem lexed_write {f : Nat → List Char} (h : magnitude v < infinity)
    (hf : Scans (f (magnitude v)) (Decimal.shortest (magnitude v)) rest) :
    Lexed (Decimal.write f v ++ rest) (literal v).tokens rest := by
  have hd := Decimal.toFloat_shortest (Nat.le_of_lt h)
  have hlex := lexed_number hf (by rw [hd]; exact (written_ofMagnitude h).1)
  rw [hd] at hlex
  rw [Decimal.write, if_neg (by omega), if_neg (by omega), literal_of_lt h]
  cases hs : isNegative v with
  | true =>
    rw [← neg_of_isNegative (Nat.le_of_lt h) hs] at hlex
    exact (lexed_char rfl).append hlex
  | false =>
    rw [← hs, ofMagnitude_magnitude (Nat.le_of_lt h)] at hlex
    exact hlex

theorem toFloat_zero : Decimal.toFloat ⟨0, 0⟩ = 0 := by decide +kernel

theorem toFloat_one : Decimal.toFloat ⟨1, 0⟩ = 1 := by decide +kernel

theorem lexed_zero (h : Ends rest) : Lexed ('0' :: rest) [.number 0] rest := by
  have hlex := lexed_number (scans_positional ⟨0, 0⟩ h) (toFloat_zero ▸ rfl)
  rwa [toFloat_zero] at hlex

theorem lexed_one (h : Ends rest) : Lexed ('1' :: rest) [.number 1] rest := by
  have hlex := lexed_number (scans_positional ⟨1, 0⟩ h) (toFloat_one ▸ rfl)
  rwa [toFloat_one] at hlex

theorem lexed_over_zero (h : Ends rest) : Lexed (" / 0".toList ++ rest) [.slash, .number 0] rest :=
  (lexed_symbol .div).append (lexed_zero h)

theorem lexed_numberText (h : Ends rest) : Lexed (numberText v ++ rest) (literal v).tokens rest := by
  rcases Nat.lt_trichotomy (magnitude v) infinity with hv | hv | hv
  · rw [numberText, if_neg (mt isNaN_iff.mp (by omega)), if_neg (mt isInf_iff.mp (by omega))]
    split
    · exact lexed_write hv (scans_scientific _ h)
    · exact lexed_write hv (scans_positional _ h)
  · rw [numberText, if_neg (mt isNaN_iff.mp (by omega)), if_pos (isInf_iff.mpr hv),
      literal_of_eq hv]
    cases hs : isNegative v with
    | true =>
      rw [if_pos ((lt_zero_iff hv).mpr hs)]
      exact (lexed_char rfl).append ((lexed_one (ends_symbol .div)).append (lexed_over_zero h))
    | false =>
      rw [if_neg (mt (lt_zero_iff hv).mp (Bool.eq_false_iff.mp hs))]
      exact (lexed_one (ends_symbol .div)).append (lexed_over_zero h)
  · rw [numberText, if_pos (isNaN_iff.mpr hv), literal_of_gt hv]
    exact (lexed_zero (ends_symbol .div)).append (lexed_over_zero h)

/-! ## Trees -/

theorem lexed_enclose {a : Expr} {text : List Char} {ks : List Token.Kind} (floor : Nat)
    (ht : ∀ rest, Ends rest → Lexed (text ++ rest) ks rest) (h : Ends rest) :
    Lexed (enclose floor a text ++ rest) (encloseTokens floor a.normal ks) rest := by
  rw [enclose, encloseTokens, writtenPrecedence_eq]
  split
  · rw [List.cons_append, List.cons_append, List.append_assoc]
    exact (lexed_char rfl).append ((ht _ ends_rparen).append (lexed_char rfl))
  · exact ht rest h

/-- The canonical text has the tokens of the tree that is written. -/
theorem lexed_chars (a : Expr) (h : Ends rest) : Lexed (a.chars ++ rest) a.normal.tokens rest := by
  induction a generalizing rest with
  | number v => exact lexed_numberText h
  | var => exact lexed_name (by decide) h
  | const c => exact lexed_name (isName_const c) h
  | neg a ih => exact (lexed_char rfl).append (lexed_enclose negFloor (fun _ => ih) h)
  | binary op a b iha ihb =>
    have hprec : (binary op a.normal b.normal).precedence = (binary op a b).precedence := by
      cases op <;> rfl
    simp only [chars, normal, tokens, hprec, List.append_assoc]
    refine (lexed_enclose _ (fun _ => iha) (ends_symbol op)).append ?_
    exact (lexed_symbol op).append (lexed_enclose _ (fun _ => ihb) h)
  | call f a ih =>
    rw [chars, List.append_assoc, List.cons_append, List.append_assoc]
    refine (lexed_name (isName_func f) (.cons rfl (by decide))).append ?_
    exact (lexed_char rfl).append ((ih ends_rparen).append (lexed_char rfl))

end CurvePlot.Expr
