import Mathlib.Logic.Relation
import CurvePlot.Proofs.Expr.Tokens

/-! Parentheses that a phrase can do without.

A parenthesis behind a name belongs to a call, and all others only group. `DropsPair` takes away two
matching parentheses that group, `Drops` any number of such pairs, one after the other. Whatever
phrase a tree has, its canonical tokens are left when the right pairs are dropped (`Derives.drops`). -/

namespace CurvePlot

/-- Every parenthesis has its match. -/
inductive Matched : List Token.Kind → Prop where
  | nil : Matched []
  | token {k ks} : k ≠ .lparen → k ≠ .rparen → Matched ks → Matched (k :: ks)
  | pair {ks ls} : Matched ks → Matched ls → Matched (.lparen :: (ks ++ .rparen :: ls))

/-- The last token, if there is one, is no name. -/
def NoNameAtEnd (ks : List Token.Kind) : Prop := ∀ name, ks.getLast? ≠ some (.ident name)

/-- Two matching parentheses are taken away that are not those of a call. -/
inductive DropsPair : List Token.Kind → List Token.Kind → Prop where
  | mk {before inside behind} : NoNameAtEnd before → Matched inside →
      DropsPair (before ++ .lparen :: (inside ++ .rparen :: behind)) (before ++ (inside ++ behind))

/-- Pairs of matching parentheses are taken away that are not those of calls. -/
abbrev Drops : List Token.Kind → List Token.Kind → Prop := Relation.ReflTransGen DropsPair

variable {ks ls : List Token.Kind} {k : Token.Kind}

/-! ## Lists with matching parentheses -/

namespace Matched

theorem append (h : Matched ks) (h' : Matched ls) : Matched (ks ++ ls) := by
  induction h with
  | nil => exact h'
  | token hl hr _ ih => exact .token hl hr ih
  | pair hk _ _ ihl =>
    rw [List.cons_append, List.append_assoc, List.cons_append]
    exact .pair hk ihl

theorem parenthesized (h : Matched ks) : Matched (.lparen :: (ks ++ [.rparen])) := .pair h .nil

theorem single (hl : k ≠ .lparen) (hr : k ≠ .rparen) : Matched [k] := .token hl hr .nil

end Matched

theorem BinOp.matched_kind (op : BinOp) : Matched [op.kind] := by
  cases op <;> exact .single nofun nofun

theorem BinOp.kind_ne_ident (op : BinOp) (name : String) : op.kind ≠ .ident name := by
  cases op <;> exact nofun

theorem Expr.Derives.matched {c : Category} {a : Expr} (h : Derives c ks a) : Matched ks := by
  induction h with
  | term _ ih | unary _ ih | power _ ih | primary _ ih => exact ih
  | @sum _ _ _ _ op _ _ _ iha ihb | @product _ _ _ _ op _ _ _ iha ihb =>
    exact iha.append (op.matched_kind.append ihb)
  | pow _ _ iha ihb => exact iha.append (BinOp.pow.matched_kind.append ihb)
  | neg _ ih => exact .token nofun nofun ih
  | number | var | const => exact .single nofun nofun
  | call _ ih => exact .token nofun nofun ih.parenthesized
  | group _ ih => exact ih.parenthesized

/-! ## Dropping pairs inside a longer list -/

theorem NoNameAtEnd.nil : NoNameAtEnd [] := nofun

theorem NoNameAtEnd.concat (ks : List Token.Kind) (hk : ∀ name, k ≠ .ident name) :
    NoNameAtEnd (ks ++ [k]) := by
  intro name h
  rw [List.getLast?_concat] at h
  exact hk name (Option.some.inj h)

theorem NoNameAtEnd.append (h : NoNameAtEnd ks) (h' : NoNameAtEnd ls) : NoNameAtEnd (ks ++ ls) := by
  intro name hlast
  rw [List.getLast?_append] at hlast
  cases hl : ls.getLast? with
  | none => exact h name (by rwa [hl] at hlast)
  | some k =>
    rw [hl] at hlast
    exact h' name (hl.trans hlast)

theorem DropsPair.append_right (h : DropsPair ks ls) (us : List Token.Kind) :
    DropsPair (ks ++ us) (ls ++ us) := by
  obtain ⟨hname, hinside⟩ := h
  simp only [List.append_assoc, List.cons_append]
  exact .mk hname hinside

theorem DropsPair.append_left (h : DropsPair ks ls) (us : List Token.Kind) (hus : NoNameAtEnd us) :
    DropsPair (us ++ ks) (us ++ ls) := by
  obtain ⟨hname, hinside⟩ := h
  simp only [← List.append_assoc us]
  exact .mk (hus.append hname) hinside

theorem DropsPair.length_eq (h : DropsPair ks ls) : ks.length = ls.length + 2 := by
  obtain ⟨-, -⟩ := h
  simp only [List.length_append, List.length_cons]
  omega

theorem DropsPair.count_lparen (h : DropsPair ks ls) :
    ks.count .lparen = ls.count .lparen + 1 := by
  obtain ⟨-, -⟩ := h
  simp [List.count_append]
  omega

namespace Drops

theorem append_right (h : Drops ks ls) (us : List Token.Kind) : Drops (ks ++ us) (ls ++ us) :=
  Relation.ReflTransGen.lift (· ++ us) (fun _ _ hstep => hstep.append_right us) _ _ h

theorem append_left (h : Drops ks ls) (us : List Token.Kind) (hus : NoNameAtEnd us) :
    Drops (us ++ ks) (us ++ ls) :=
  Relation.ReflTransGen.lift (us ++ ·) (fun _ _ hstep => hstep.append_left us hus) _ _ h

theorem length_le (h : Drops ks ls) : ls.length ≤ ks.length := by
  induction h with
  | refl => exact Nat.le_refl _
  | tail _ hstep ih =>
    have := hstep.length_eq
    omega

theorem count_lparen_le (h : Drops ks ls) : ls.count .lparen ≤ ks.count .lparen := by
  induction h with
  | refl => exact Nat.le_refl _
  | tail _ hstep ih =>
    have := hstep.count_lparen
    omega

end Drops

namespace Expr

variable {c : Category} {ts : List Token.Kind} {a : Expr} {m n : Nat}

theorem matched_tokens (a : Expr) : Matched a.tokens := (nests_tokens a).derives.matched

/-- Below a lower floor, the parentheses of a higher one may be needless. -/
theorem drops_enclose (a : Expr) (h : m ≤ n) :
    Drops (encloseTokens n a a.tokens) (encloseTokens m a a.tokens) := by
  by_cases hm : a.precedence.1 < m
  · rw [encloseTokens, encloseTokens, if_pos hm, if_pos (Nat.lt_of_lt_of_le hm h)]
  · by_cases hn : a.precedence.1 < n
    · have hdrop : DropsPair ([] ++ .lparen :: (a.tokens ++ .rparen :: [])) ([] ++ (a.tokens ++ [])) :=
        .mk .nil (matched_tokens a)
      rw [List.append_nil, List.nil_append, List.nil_append] at hdrop
      rw [encloseTokens, encloseTokens, if_neg hm, if_pos hn]
      exact .single hdrop
    · rw [encloseTokens, encloseTokens, if_neg hm, if_neg hn]

theorem encloseTokens_of_le {ks : List Token.Kind} (h : n ≤ a.precedence.1) :
    encloseTokens n a ks = ks := if_neg (Nat.not_lt_of_le h)

/-- An expression has no parentheses around all of it. -/
theorem encloseTokens_expression (a : Expr) (ks : List Token.Kind) :
    encloseTokens Category.expression.floor a ks = ks := by
  refine encloseTokens_of_le ?_
  rw [← floor_category]
  cases a.category <;> decide

/-- The operands of an operator lose their needless parentheses. -/
theorem drops_operator {us vs ws xs : List Token.Kind} (op : BinOp) (h : Drops us vs)
    (h' : Drops ws xs) : Drops (us ++ op.kind :: ws) (vs ++ op.kind :: xs) := by
  have hright := h'.append_left _ (.concat vs (op.kind_ne_ident))
  rw [List.append_assoc, List.append_assoc, List.singleton_append, List.singleton_append] at hright
  exact (h.append_right _).trans hright

/-- Whatever phrase a tree has, the canonical tokens are left when needless parentheses are dropped. -/
theorem Derives.drops (h : Derives c ts a) : Drops ts (encloseTokens c.floor a a.tokens) := by
  induction h with
  | @term _ a _ ih | @unary _ a _ ih | @power _ a _ ih | @primary _ a _ ih =>
    exact ih.trans (drops_enclose a (by decide))
  | @sum _ _ _ _ op hop _ _ iha ihb | @product _ _ _ _ op hop _ _ iha ihb =>
    rcases hop with rfl | rfl <;> exact drops_operator _ iha ihb
  | pow _ _ iha ihb => exact drops_operator .pow iha ihb
  | neg _ ih => exact ih.append_left [.minus] (.concat [] nofun)
  | number | var | const => exact .refl
  | @call ts a f _ ih =>
    rw [encloseTokens_expression] at ih
    exact (ih.append_right [.rparen]).append_left [.ident f.name, .lparen] (.concat [_] nofun)
  | @group ts a _ ih =>
    rw [encloseTokens_expression] at ih
    have hgroup := (ih.append_right [.rparen]).append_left [.lparen] (.concat [] nofun)
    have hlt : a.precedence.1 < 6 := by
      rw [← floor_category]
      cases a.category <;> decide
    have henclose := drops_enclose a (show Category.primary.floor ≤ 6 by decide)
    rw [encloseTokens, if_pos hlt] at henclose
    exact hgroup.trans henclose

end Expr

end CurvePlot
