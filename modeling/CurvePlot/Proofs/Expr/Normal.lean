import CurvePlot.Proofs.Binary64.Bits
import CurvePlot.Proofs.Expr.Tokens
import CurvePlot.Proofs.Token.Reading

/-! Trees without the literals that no token stands for.

Literals with a sign, infinite ones and those that are no number are written as operations
(`literal`). `normal` puts these operations into the tree, and `Plain` trees have none of those
literals: they are the trees that `normal` leaves alone, and the ones that are read. -/

namespace CurvePlot.Expr

open Binary64

/-- The tree that a literal is written as. -/
def literal (v : Float) : Expr :=
  if v.isNaN then .binary .div (.number 0) (.number 0)
  else if v.isInf then
    .binary .div (if isNegative v then .neg (.number 1) else .number 1) (.number 0)
  else if isNegative v then .neg (.number (-v))
  else .number v

/-- The tree that is written. -/
def normal : Expr → Expr
  | number v => literal v
  | var => var
  | const c => const c
  | neg a => neg a.normal
  | binary op a b => binary op a.normal b.normal
  | call f a => call f a.normal

/-- The literals are those of tokens. -/
def Plain : Expr → Prop
  | number v => (Token.Kind.number v).Written
  | var | const _ => True
  | neg a | call _ a => a.Plain
  | binary _ a b => a.Plain ∧ b.Plain

variable {v : Float} {a : Expr} {n : Nat}

/-! ## The three kinds of literals -/

theorem literal_of_gt (h : infinity < magnitude v) :
    literal v = .binary .div (.number 0) (.number 0) :=
  if_pos (isNaN_iff.mpr h)

theorem literal_of_eq (h : magnitude v = infinity) :
    literal v = .binary .div (if isNegative v then .neg (.number 1) else .number 1) (.number 0) := by
  rw [literal, if_neg (mt isNaN_iff.mp (by omega)), if_pos (isInf_iff.mpr h)]

theorem literal_of_lt (h : magnitude v < infinity) :
    literal v = if isNegative v then .neg (.number (-v)) else .number v := by
  rw [literal, if_neg (mt isNaN_iff.mp (by omega)), if_neg (mt isInf_iff.mp (by omega))]

theorem written_ofMagnitude (h : n < infinity) :
    (Token.Kind.number (ofMagnitude false n)).Written :=
  ⟨isFinite_iff.mpr (by rwa [magnitude_ofMagnitude (Nat.le_of_lt h)]),
    isNegative_ofMagnitude (Nat.le_of_lt h)⟩

theorem written_neg (h : magnitude v < infinity) (hs : isNegative v = true) :
    (Token.Kind.number (-v)).Written := by
  rw [neg_of_isNegative (Nat.le_of_lt h) hs]
  exact written_ofMagnitude h

theorem written_zero : (Token.Kind.number 0).Written := ⟨rfl, rfl⟩

theorem written_one : (Token.Kind.number 1).Written := ⟨rfl, rfl⟩

theorem literal_of_written (h : (Token.Kind.number v).Written) : literal v = .number v := by
  rw [literal_of_lt (isFinite_iff.mp h.1), h.2]
  rfl

theorem plain_literal (v : Float) : (literal v).Plain := by
  rcases Nat.lt_trichotomy (magnitude v) infinity with h | h | h
  · rw [literal_of_lt h]
    split
    · next hs => exact written_neg h hs
    · next hs => exact ⟨isFinite_iff.mpr h, Bool.eq_false_iff.mpr hs⟩
  · rw [literal_of_eq h]
    split <;> exact ⟨written_one, written_zero⟩
  · rw [literal_of_gt h]
    exact ⟨written_zero, written_zero⟩

/-! ## Plain trees -/

theorem Plain.normal (h : a.Plain) : a.normal = a := by
  induction a with
  | number v => exact literal_of_written h
  | var | const c => rfl
  | neg a ih => rw [Expr.normal, ih h]
  | binary op a b iha ihb => rw [Expr.normal, iha h.1, ihb h.2]
  | call f a ih => rw [Expr.normal, ih h]

theorem plain_normal (a : Expr) : a.normal.Plain := by
  induction a with
  | number v => exact plain_literal v
  | var | const c => trivial
  | neg a ih | call f a ih => exact ih
  | binary op a b iha ihb => exact ⟨iha, ihb⟩

/-- The printer takes a literal for the operation that it is written as. -/
theorem writtenPrecedence_eq (a : Expr) : a.writtenPrecedence = a.normal.precedence.1 := by
  cases a with
  | number v =>
    have hfinite := isFinite_iff (x := v)
    rw [writtenPrecedence, normal]
    rcases Nat.lt_trichotomy (magnitude v) infinity with h | h | h
    · rw [literal_of_lt h, hfinite.mpr h]
      cases isNegative v <;> rfl
    · rw [literal_of_eq h, Bool.eq_false_iff.mpr (mt hfinite.mp (by omega))]
      rfl
    · rw [literal_of_gt h, Bool.eq_false_iff.mpr (mt hfinite.mp (by omega))]
      rfl
  | binary op => cases op <;> rfl
  | _ => rfl

/-- The tree of a phrase has no other literals than its tokens. -/
theorem Derives.plain {c : Category} {ts : List Token.Kind} (h : Derives c ts a)
    (hts : ∀ k ∈ ts, k.Written) : a.Plain := by
  induction h with
  | term _ ih | unary _ ih | power _ ih | primary _ ih => exact ih hts
  | sum _ _ _ iha ihb | product _ _ _ iha ihb | pow _ _ iha ihb =>
    exact ⟨iha fun k hk => hts k (by simp [hk]), ihb fun k hk => hts k (by simp [hk])⟩
  | neg _ ih => exact ih fun k hk => hts k (List.mem_cons_of_mem _ hk)
  | number => exact hts _ List.mem_cons_self
  | var | const => trivial
  | call _ ih | group _ ih => exact ih fun k hk => hts k (by simp [hk])

end CurvePlot.Expr
