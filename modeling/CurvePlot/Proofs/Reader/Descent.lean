import CurvePlot.Expr.Error
import CurvePlot.Proofs.Grammar

/-! Reading by recursive descent, with a counter of the depth.

There is a routine for each category of the grammar (`read`) and one for calls (`call`). A routine
raises the counter at each operator and opening parenthesis, which is refused above the limit, and
lowers it before it returns. So it leaves the counter as it was, and never lowers it below zero, which
would be a failure of its own (`balanced_read`, `balanced_call`). -/

namespace CurvePlot

namespace Expr.Category

/-- The category of the operands of a chain. -/
def operand : Category → Category
  | expression => .term
  | term => .unary
  | unary | power | primary => .primary

/-- The operators of a chain. -/
def operator? : Category → Token.Kind → Option BinOp
  | expression, .plus => some .add
  | expression, .minus => some .sub
  | term, .star => some .mul
  | term, .slash => some .div
  | _, _ => none

end Expr.Category

namespace Parser.Descent

open CurvePlot.Expr (Category)

/-- The tokens that are left, the position of the last token and the counter. -/
structure Cursor where
  rest : List Token
  last : Nat := 0
  depth : Nat := 0

inductive Failure where
  /-- The tokens are no expression. -/
  | refused (e : ParseError)
  /-- The counter would fall below zero. -/
  | underflow
deriving DecidableEq

/-- What was read, and the cursor behind it, with less than `n` tokens left. -/
structure Parsed (α : Type) (n : Nat) where
  value : α
  next : Cursor
  shorter : next.rest.length < n

abbrev Result (α : Type) (n : Nat) := Except Failure (Parsed α n)

/-! ## Tokens and the counter -/

namespace Cursor

/-- The next token. Without one, the input ends at the last token. -/
def peek (k : Cursor) : Token := k.rest.headD ⟨.eof, k.last⟩

def unexpected (k : Cursor) (expected : Expected) : Failure :=
  .refused (.unexpectedToken k.peek.offset expected k.peek.kind)

/-- Takes the next token if there is a use for it. The position of the token is then the last one. -/
def accept {α : Type} (use : Token.Kind → Option α) : (k : Cursor) → Option (Parsed α k.rest.length)
  | ⟨[], _, _⟩ => none
  | ⟨t :: ts, _, depth⟩ =>
    (use t.kind).map fun value => ⟨value, ⟨ts, t.offset, depth⟩, Nat.lt_succ_self _⟩

/-- Raises the counter. -/
def deeper (k : Cursor) : Cursor := { k with depth := k.depth + 1 }

/-- Whether the counter may be raised, for the token at `offset`. -/
def permit (limit : Option Nat) (offset : Nat) (k : Cursor) : Except Failure Unit :=
  if limit.all (k.depth + 1 ≤ ·) then .ok () else .error (.refused (.tooDeep offset))

end Cursor

/-- The use of a token that must be of one kind. -/
def only (kind : Token.Kind) (k : Token.Kind) : Option Unit := if k = kind then some () else none

/-- The use of a token that an operand begins with. -/
def operand? : Token.Kind → Option Token.Kind
  | .number v => some (.number v)
  | .ident name => some (.ident name)
  | .lparen => some .lparen
  | _ => none

def Cursor.consume (kind : Token.Kind) (expected : Expected) (k : Cursor) :
    Result Unit k.rest.length :=
  match k.accept (only kind) with
  | some t => .ok t
  | none => .error (k.unexpected expected)

namespace Parsed

variable {α β γ : Type} {n : Nat}

def set (p : Parsed α n) (value : β) : Parsed β n := ⟨value, p.next, p.shorter⟩

/-- What was read behind `p`, with a value for both. -/
def andThen (p : Parsed α n) (q : Parsed β p.next.rest.length) (value : γ) : Parsed γ n :=
  ⟨value, q.next, Nat.lt_trans q.shorter p.shorter⟩

/-- Lowers the counter. -/
def ascend (p : Parsed α n) (levels : Nat) : Result α n :=
  if levels ≤ p.next.depth then
    .ok ⟨p.value, { p.next with depth := p.next.depth - levels }, p.shorter⟩
  else .error .underflow

end Parsed

/-! ## Routines -/

mutual

/-- Reads a phrase of the category. -/
def read (limit : Option Nat) (c : Category) (k : Cursor) : Result Expr k.rest.length :=
  match c with
  | .expression => do chain limit .expression (← read limit .term k) 0
  | .term => do chain limit .term (← read limit .unary k) 0
  | .unary =>
    match k.accept (only .minus) with
    | some t => do
      t.next.permit limit t.next.last
      let p ← read limit .unary t.next.deeper
      (t.andThen p (.neg p.value)).ascend 1
    | none => read limit .power k
  | .power => do
    let p ← read limit .primary k
    match p.next.accept (only .caret) with
    | some t => do
      t.next.permit limit t.next.last
      let q ← read limit .unary t.next.deeper
      ((p.andThen t ()).andThen q (.binary .pow p.value q.value)).ascend 1
    | none => return p
  | .primary =>
    match k.accept operand? with
    | none => .error (k.unexpected .operand)
    | some t =>
      match t.value with
      | .number v => .ok (t.set (.number v))
      | .ident name =>
        match Name.resolve name with
        | some (.operand a) => .ok (t.set a)
        | some (.function f) => do
          let p ← call limit f t.next.last t.next
          return t.andThen p p.value
        | none => .error (.refused (.unknownIdentifier t.next.last name))
      | _ => do
        t.next.permit limit t.next.last
        let p ← read limit .expression t.next.deeper
        let u ← p.next.consume .rparen .closeParen
        ((t.andThen p ()).andThen u p.value).ascend 1
termination_by (k.rest.length, 6 - c.floor)
decreasing_by
  · exact .right _ (by decide)
  · exact .left _ _ (Parsed.shorter _)
  · exact .right _ (by decide)
  · exact .left _ _ (Parsed.shorter _)
  · exact .left _ _ t.shorter
  · exact .right _ (by decide)
  · exact .right _ (by decide)
  · exact .left _ _ (Nat.lt_trans t.shorter p.shorter)
  · exact .left _ _ t.shorter
  · exact .left _ _ t.shorter

/-- Goes on with a chain that has `chained` operators so far. -/
def chain (limit : Option Nat) (c : Category) {n : Nat} (p : Parsed Expr n) (chained : Nat) :
    Result Expr n :=
  match p.next.accept c.operator? with
  | some t => do
    t.next.permit limit t.next.last
    let q ← read limit c.operand t.next.deeper
    chain limit c ((p.andThen t ()).andThen q (.binary t.value p.value q.value)) (chained + 1)
  | none => p.ascend chained
termination_by (p.next.rest.length, 0)
decreasing_by
  · exact .left _ _ t.shorter
  · exact .left _ _ (Nat.lt_trans q.shorter t.shorter)

/-- Reads the arguments of a function whose name was at `offset`. -/
def call (limit : Option Nat) (f : Func) (offset : Nat) (k : Cursor) : Result Expr k.rest.length := do
  let t ← k.consume .lparen .openParen
  t.next.permit limit offset
  let p ← arguments limit t.next.deeper
  let p ← (t.andThen p p.value).ascend 1
  match p.value with
  | [a] => .ok (p.set (.call f a))
  | args => .error (.refused (.argumentCountMismatch offset args.length))
termination_by (k.rest.length, 0)
decreasing_by exact .left _ _ t.shorter

/-- Reads arguments and the parenthesis behind them. -/
def arguments (limit : Option Nat) (k : Cursor) : Result (List Expr) k.rest.length :=
  match k.accept (only .rparen) with
  | some t => .ok (t.set [])
  | none => do
    let p ← read limit .expression k
    moreArguments limit (p.set [p.value])
termination_by (k.rest.length, 6)
decreasing_by
  · exact .right _ (by decide)
  · exact .left _ _ p.shorter

/-- Goes on with the arguments behind the ones so far, the last of which comes first. -/
def moreArguments (limit : Option Nat) {n : Nat} (p : Parsed (List Expr) n) : Result (List Expr) n :=
  match p.next.accept (only .comma) with
  | some t => do
    let q ← read limit .expression t.next
    moreArguments limit ((p.andThen t ()).andThen q (q.value :: p.value))
  | none => do
    let t ← p.next.consume .rparen .commaOrCloseParen
    return p.andThen t p.value
termination_by (p.next.rest.length, 0)
decreasing_by
  · exact .left _ _ t.shorter
  · exact .left _ _ (Nat.lt_trans q.shorter t.shorter)

end

/-- Reads a whole list. -/
def descent (limit : Option Nat) (ts : List Token) : Except Failure Expr :=
  let k : Cursor := { rest := ts }
  if k.peek.kind = .eof then .error (.refused .emptyExpression)
  else do
    let p ← read limit .expression k
    if p.next.peek.kind = .eof then .ok p.value
    else .error (.refused (.trailingInput p.next.peek.offset))

/-! ## The counter is left as it was -/

/-- The counter is `depth` behind what was read, and it was not lowered below zero. -/
def Balanced {α : Type} {n : Nat} (depth : Nat) : Result α n → Prop
  | .ok p => p.next.depth = depth
  | .error e => e ≠ .underflow

variable {α β : Type} {m n depth depth' : Nat} {k : Cursor}

theorem Balanced.bind {r : Result α m} {f : Parsed α m → Result β n} (h : Balanced depth r)
    (hf : ∀ p, p.next.depth = depth → Balanced depth' (f p)) : Balanced depth' (r.bind f) := by
  cases r with
  | error e => exact h
  | ok p => exact hf p h

theorem balanced_permit {limit : Option Nat} {offset : Nat} {f : Unit → Result α n}
    (h : Balanced depth (f ())) : Balanced depth ((k.permit limit offset).bind f) := by
  unfold Cursor.permit
  split
  · exact h
  · exact nofun

theorem balanced_ascend {p : Parsed α n} {levels : Nat} (h : p.next.depth = depth + levels) :
    Balanced depth (p.ascend levels) := by
  rw [Parsed.ascend, if_pos (h ▸ Nat.le_add_left levels depth)]
  change p.next.depth - levels = depth
  rw [h, Nat.add_sub_cancel]

theorem depth_of_accept {use : Token.Kind → Option α} {t : Parsed α k.rest.length}
    (h : k.accept use = some t) : t.next.depth = k.depth := by
  obtain ⟨_ | ⟨u, us⟩, last, depth⟩ := k
  · cases h
  · obtain ⟨value, -, rfl⟩ := Option.map_eq_some_iff.mp h
    rfl

theorem balanced_consume {kind : Token.Kind} {expected : Expected} :
    Balanced k.depth (k.consume kind expected) := by
  unfold Cursor.consume
  split
  · next t ht => exact depth_of_accept ht
  · exact nofun

mutual

/-- **A routine leaves the counter as it was**, and does not lower it below zero. -/
theorem balanced_read (limit : Option Nat) (c : Category) (k : Cursor) :
    Balanced k.depth (read limit c k) := by
  cases c with
  | expression =>
    rw [read]
    exact (balanced_read limit .term k).bind fun p hp => balanced_chain limit .expression p 0 hp
  | term =>
    rw [read]
    exact (balanced_read limit .unary k).bind fun p hp => balanced_chain limit .term p 0 hp
  | unary =>
    rw [read]
    split
    · next t ht =>
      refine balanced_permit ((balanced_read limit .unary t.next.deeper).bind fun p hp => ?_)
      refine balanced_ascend (hp.trans ?_)
      rw [Cursor.deeper, depth_of_accept ht]
    · exact balanced_read limit .power k
  | power =>
    rw [read]
    refine (balanced_read limit .primary k).bind fun p hp => ?_
    split
    · next t ht =>
      refine balanced_permit ((balanced_read limit .unary t.next.deeper).bind fun q hq => ?_)
      refine balanced_ascend (hq.trans ?_)
      rw [Cursor.deeper, depth_of_accept ht, hp]
    · exact hp
  | primary =>
    rw [read]
    split
    · exact nofun
    · next t ht =>
      have hdepth := depth_of_accept ht
      split
      · exact hdepth
      · split
        · exact hdepth
        · next f hf =>
          refine (balanced_call limit f t.next.last t.next).bind fun p hp => ?_
          exact hp.trans hdepth
        · exact nofun
      · refine balanced_permit ((balanced_read limit .expression t.next.deeper).bind fun p hp => ?_)
        refine balanced_consume.bind fun u hu => balanced_ascend (hu.trans (hp.trans ?_))
        rw [Cursor.deeper, hdepth]
termination_by (k.rest.length, 6 - c.floor)
decreasing_by
  · exact .right _ (by decide)
  · exact .left _ _ p.shorter
  · exact .right _ (by decide)
  · exact .left _ _ p.shorter
  · exact .left _ _ (Parsed.shorter _)
  · exact .right _ (by decide)
  · exact .right _ (by decide)
  · exact .left _ _ (Nat.lt_trans (Parsed.shorter _) p.shorter)
  · exact .left _ _ (Parsed.shorter _)
  · exact .left _ _ (Parsed.shorter _)

theorem balanced_chain (limit : Option Nat) (c : Category) {n : Nat} (p : Parsed Expr n)
    (chained : Nat) {depth : Nat} (h : p.next.depth = depth + chained) :
    Balanced depth (chain limit c p chained) := by
  rw [chain]
  split
  · next t ht =>
    refine balanced_permit ((balanced_read limit c.operand t.next.deeper).bind fun q hq => ?_)
    refine balanced_chain limit c _ (chained + 1) (hq.trans ?_)
    rw [Cursor.deeper, depth_of_accept ht, h, Nat.add_assoc]
  · exact balanced_ascend h
termination_by (p.next.rest.length, 0)
decreasing_by
  · exact .left _ _ (Parsed.shorter _)
  · exact .left _ _ (Nat.lt_trans q.shorter (Parsed.shorter _))

/-- The routine for calls does so, too. -/
theorem balanced_call (limit : Option Nat) (f : Func) (offset : Nat) (k : Cursor) :
    Balanced k.depth (call limit f offset k) := by
  rw [call]
  refine balanced_consume.bind fun t ht => ?_
  refine balanced_permit ((balanced_arguments limit t.next.deeper).bind fun p hp => ?_)
  have hdepth : p.next.depth = k.depth + 1 := by rw [hp, Cursor.deeper, ht]
  refine (balanced_ascend (p := t.andThen p p.value) hdepth).bind fun q hq => ?_
  split
  · exact hq
  · exact nofun
termination_by (k.rest.length, 0)
decreasing_by exact .left _ _ (Parsed.shorter _)

theorem balanced_arguments (limit : Option Nat) (k : Cursor) :
    Balanced k.depth (arguments limit k) := by
  rw [arguments]
  split
  · next t ht =>
    have hdepth := depth_of_accept ht
    exact hdepth
  · exact (balanced_read limit .expression k).bind fun p hp => balanced_moreArguments limit _ hp
termination_by (k.rest.length, 6)
decreasing_by
  · exact .right _ (by decide)
  · exact .left _ _ p.shorter

theorem balanced_moreArguments (limit : Option Nat) {n : Nat} (p : Parsed (List Expr) n) {depth : Nat}
    (h : p.next.depth = depth) : Balanced depth (moreArguments limit p) := by
  rw [moreArguments]
  split
  · next t ht =>
    refine (balanced_read limit .expression t.next).bind fun q hq => ?_
    exact balanced_moreArguments limit _ (hq.trans ((depth_of_accept ht).trans h))
  · exact balanced_consume.bind fun t ht => ht.trans h
termination_by (p.next.rest.length, 0)
decreasing_by
  · exact .left _ _ (Parsed.shorter _)
  · exact .left _ _ (Nat.lt_trans q.shorter (Parsed.shorter _))

end

end Parser.Descent

end CurvePlot
