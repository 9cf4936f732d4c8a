import CurvePlot.Proofs.Reader.Descent
import CurvePlot.Proofs.Reader.Faults
import CurvePlot.Proofs.Reader.Phrases

/-! The reader and the recursive descent give the same results.

A routine of the descent reads a phrase where the reader goes through many states. They are compared at
the ends of phrases: when a routine that began at some state of the reader returns, the reader comes to
a state behind the phrase (`Behind`), with the token next that the routine stopped at, and when the
routine fails, the reader has the same error (`Agrees`). The counter is the depth of the reader's state
where an operand has to follow, and so both refuse to go deeper at the same token. -/

namespace CurvePlot

open CurvePlot.Expr (Category)

/-- No phrase of the category goes on with the token. -/
def Expr.Category.Stops : Category → Token.Kind → Prop
  | expression, k => expression.operator? k = none ∧ term.operator? k = none ∧ k ≠ .caret
  | term, k => term.operator? k = none ∧ k ≠ .caret
  | unary, k | power, k => k ≠ .caret
  | primary, _ => True

namespace Parser

/-! ## The reader -/

namespace State

variable {s : State} {t : Token} {ts : List Token} {limit : Option Nat} {e : ParseError} {b : Expr}

def Within (limit : Option Nat) (s : State) : Prop := limit.all (s.depth ≤ ·) = true

/-- With a limit, the reader goes on behind a token unless the state there is too deep. -/
theorem Steps.run {focus : Focus} {frames : List Frame} {level : Level}
    (h : s.Steps t focus frames level) (hs : s.Within limit) :
    ∃ s' : State, s'.focus = focus ∧ s'.frames = frames ∧ s'.level = level ∧ s'.last = t.offset ∧
      (s'.Within limit ∧ (∀ ts, s.run limit (t :: ts) = s'.run limit ts) ∨
        ¬s'.Within limit ∧ ∀ ts, s.run limit (t :: ts) = .error (.tooDeep (s.blamed t))) := by
  obtain ⟨s', hstep, hfocus, hframes, hlevel⟩ := h
  obtain ⟨hmove, hlast⟩ := move_of_step hstep
  refine ⟨s', hfocus, hframes, hlevel, hlast, ?_⟩
  have hrun (ts : List Token) : s.run limit (t :: ts) = (s.step limit t).bind (·.run limit ts) :=
    run_cons hmove.ne_eof
  cases limit with
  | none => exact .inl ⟨rfl, fun ts => by rw [hrun, hstep]; rfl⟩
  | some n =>
    have hlimited := step_some (t := t) (of_decide_eq_true hs)
    rw [hstep] at hlimited
    by_cases hd : s'.depth ≤ n
    · rw [check_ok hd] at hlimited
      exact .inl ⟨decide_eq_true hd, fun ts => by rw [hrun, hlimited]; rfl⟩
    · rw [check_deep (Nat.lt_of_not_le hd)] at hlimited
      exact .inr ⟨fun hs' => hd (of_decide_eq_true hs'), fun ts => by rw [hrun, hlimited]; rfl⟩

/-- A step that does not lead deeper is not refused. -/
theorem Steps.run_of_le {focus : Focus} {frames : List Frame} {level : Level}
    (h : s.Steps t focus frames level) (hs : s.Within limit)
    (hd : ∀ s' : State, s'.frames = frames → s'.level = level → s'.Within limit) :
    ∃ s' : State, s'.focus = focus ∧ s'.frames = frames ∧ s'.level = level ∧ s'.last = t.offset ∧
      s'.Within limit ∧ ∀ ts, s.run limit (t :: ts) = s'.run limit ts := by
  obtain ⟨s', hfocus, hframes, hlevel, hlast, ⟨hin, hrun⟩ | ⟨hdeep, -⟩⟩ := h.run hs
  · exact ⟨s', hfocus, hframes, hlevel, hlast, hin, hrun⟩
  · exact absurd (hd s' hframes hlevel) hdeep

theorem refuses_operand {closable : Bool} (hs : s.focus = .operand closable)
    (ht : Descent.operand? t.kind = none) (hminus : t.kind ≠ .minus)
    (hclosable : closable = true → t.kind ≠ .rparen) :
    s.Refuses limit t (.unexpectedToken t.offset .operand t.kind) := by
  have hread : s.readOperand limit t closable = .error (s.unexpected t) := by
    unfold readOperand
    split
    · next v hk => rw [hk] at ht; cases ht
    · next name hk => rw [hk] at ht; cases ht
    · next hk => rw [hk] at ht; cases ht
    · next hk => exact absurd hk hminus
    · next hk =>
      split
      · exact absurd hk (hclosable rfl)
      · rfl
    · rfl
  unfold Refuses
  split
  · next hk => simp only [finish, hs, expected, hk]
  · simp only [step, read, hs, hread, unexpected, expected]
    rfl

theorem refuses_unknown {closable : Bool} {name : String} (hs : s.focus = .operand closable)
    (ht : t.kind = .ident name) (hname : Name.resolve name = none) :
    s.Refuses limit t (.unknownIdentifier t.offset name) := by
  simp only [Refuses, step, read, hs, readOperand, ht, hname]
  rfl

theorem refuses_name {f : Func} {o : Nat} (hs : s.focus = .name f o) (ht : t.kind ≠ .lparen) :
    s.Refuses limit t (.unexpectedToken t.offset .openParen t.kind) := by
  unfold Refuses
  split
  · next hk => simp only [finish, hs, expected, hk]
  · simp only [step, read, hs, unexpected, expected]
    rfl

/-- A call ends behind more than one argument. -/
theorem refuses_rparen {f : Func} {o k : Nat} {l : Level} {fs : List Frame} (hs : s.focus = .complete b)
    (hf : s.frames = ⟨.call f o (k + 1), l⟩ :: fs) (ht : t.kind = .rparen) :
    s.Refuses limit t (.argumentCountMismatch o (k + 2)) := by
  simp only [Refuses, step, read, hs, readOperator, ht, close, hf, if_neg (Nat.succ_ne_zero k)]
  rfl

/-- A call ends without arguments. -/
theorem refuses_rparen_closable {f : Func} {o k : Nat} {l : Level} {fs : List Frame}
    (hs : s.focus = .operand true) (hf : s.frames = ⟨.call f o k, l⟩ :: fs) (ht : t.kind = .rparen) :
    s.Refuses limit t (.argumentCountMismatch o k) := by
  simp only [Refuses, step, read, hs, readOperand, ht, hf]
  rfl

/-- Behind an operand that no operator follows, only the end of what is open can follow. -/
theorem refuses_complete (hs : s.focus = .complete b) (ht : Category.expression.Stops t.kind)
    (hrparen : t.kind = .rparen → s.frames = [])
    (hcomma : t.kind = .comma → ∀ f o k l fs, s.frames ≠ ⟨.call f o k, l⟩ :: fs)
    (heof : t.kind = .eof → s.frames ≠ []) : s.Refuses limit t (s.unexpected t) := by
  have hread : s.readOperator limit t b = .error (s.unexpected t) := by
    obtain ⟨hsum, hproduct, hcaret⟩ := ht
    unfold readOperator
    split
    · next hk => rw [hk] at hsum; cases hsum
    · next hk => rw [hk] at hsum; cases hsum
    · next hk => rw [hk] at hproduct; cases hproduct
    · next hk => rw [hk] at hproduct; cases hproduct
    · next hk => exact absurd hk hcaret
    · next hk => simp only [close, hrparen hk]
    · next hk =>
      unfold nextArgument
      split
      · next hf => exact absurd hf (hcomma hk _ _ _ _ _)
      · rfl
    · rfl
  unfold Refuses
  split
  · next hk =>
    have hne := heof hk
    unfold finish unexpected
    split
    · next hf => exact absurd hf hne
    · rw [hk]
  · simp only [step, read, hs, hread]
    rfl

end State

namespace Descent

open State (Steps Within Refuses)

variable {α β : Type} {m n : Nat} {k : Cursor} {s : State} {x : Except ParseError Expr}
  {limit : Option Nat} {c : Category} {frames : List Frame} {level : Level} {e : ParseError}

/-! ## Cursors -/

theorem Cursor.peek_nil {last depth : Nat} : (⟨[], last, depth⟩ : Cursor).peek = ⟨.eof, last⟩ := rfl

theorem Cursor.peek_cons {t : Token} {ts : List Token} {last depth : Nat} :
    (⟨t :: ts, last, depth⟩ : Cursor).peek = t := rfl

theorem cons_of_accept {use : Token.Kind → Option α} {t : Parsed α k.rest.length}
    (h : k.accept use = some t) :
    ∃ u, k.rest = u :: t.next.rest ∧ use u.kind = some t.value ∧ t.next.last = u.offset := by
  obtain ⟨_ | ⟨u, us⟩, last, depth⟩ := k
  · cases h
  · obtain ⟨value, huse, rfl⟩ := Option.map_eq_some_iff.mp h
    exact ⟨u, rfl, huse, rfl⟩

theorem peek_of_cons {t : Token} {ts : List Token} (h : k.rest = t :: ts) : k.peek = t := by
  rw [Cursor.peek, h]
  rfl

theorem use_peek {use : Token.Kind → Option α} (h : k.accept use = none) (heof : use .eof = none) :
    use k.peek.kind = none := by
  obtain ⟨_ | ⟨u, us⟩, last, depth⟩ := k
  · exact heof
  · exact Option.map_eq_none_iff.mp h

theorem only_eq_some {kind k : Token.Kind} {u : Unit} (h : only kind k = some u) : k = kind := by
  unfold only at h
  split at h
  · assumption
  · cases h

theorem only_eq_none {kind k : Token.Kind} (h : only kind k = none) : k ≠ kind := by
  unfold only at h
  split at h
  · cases h
  · assumption

theorem run_of_peek_eof (s : State) (limit : Option Nat) (h : k.peek.kind = .eof) :
    ∃ offset, s.run limit k.rest = s.finish offset := by
  obtain ⟨_ | ⟨u, us⟩, last, depth⟩ := k
  · exact ⟨_, rfl⟩
  · exact ⟨u.offset, if_pos h⟩

/-- Where the next token is refused, the reader has an error. -/
theorem run_of_refuses (hlast : s.last = k.last) (h : s.Refuses limit k.peek e) :
    s.run limit k.rest = .error e := by
  obtain ⟨_ | ⟨u, us⟩, last, depth⟩ := k
  · rw [Cursor.peek_nil, Refuses, if_pos rfl] at h
    exact (congrArg s.finish hlast).trans h
  · rw [Cursor.peek_cons, Refuses] at h
    split at h
    · next hu => rwa [State.run_of_eof hu]
    · next hu =>
      rw [State.run_cons hu, h]
      rfl

/-! ## Results -/

/-- The result `x` of the reader bears out what a routine returns. -/
def Sim (x : Except ParseError Expr) (post : Parsed α n → Prop) : Result α n → Prop
  | .ok p => post p
  | .error (.refused e) => x = .error e
  | .error .underflow => True

theorem Sim.bind {post : Parsed α m → Prop} {post' : Parsed β n → Prop} {r : Result α m} {depth : Nat}
    {f : Parsed α m → Result β n} (h : Sim x post r) (hr : Balanced depth r)
    (hf : ∀ p, p.next.depth = depth → post p → Sim x post' (f p)) : Sim x post' (r.bind f) := by
  cases r with
  | ok p => exact hf p hr h
  | error e => cases e <;> exact h

theorem sim_ascend {post : Parsed α n → Prop} {p : Parsed α n} {levels : Nat}
    (h : ∀ depth, post ⟨p.value, { p.next with depth }, p.shorter⟩) :
    Sim x post (p.ascend levels) := by
  unfold Parsed.ascend
  split
  · exact h _
  · trivial

/-- The reader stands behind a phrase of the category `c` for the tree `a`, which is a chain of `m`
operators. It began inside the parentheses `frames` at the level `level`. -/
def Behind (x : Except ParseError Expr) (limit : Option Nat) (frames : List Frame) (level : Level)
    (c : Category) (a : Expr) (m : Nat) (k : Cursor) : Prop :=
  ∃ (s : State) (b : Expr), x = s.run limit k.rest ∧ s.last = k.last ∧ s.Within limit ∧ s.frames = frames ∧
    s.focus = .complete b ∧ level.Completes c a m s.level b

/-- A routine has read a phrase, and all of it. -/
def Reads (x : Except ParseError Expr) (limit : Option Nat) (frames : List Frame) (level : Level)
    (c : Category) (p : Parsed Expr n) : Prop :=
  (∃ m, Behind x limit frames level c p.value m p.next) ∧ c.Stops p.next.peek.kind

theorem Behind.imp {c c' : Category} {a a' : Expr} {m m' : Nat} {level level' : Level}
    (h : Behind x limit frames level c a m k)
    (hc : ∀ l b, level.Completes c a m l b → level'.Completes c' a' m' l b) :
    Behind x limit frames level' c' a' m' k := by
  obtain ⟨s, b, hx, hlast, hin, hframes, hfocus, hcomp⟩ := h
  exact ⟨s, b, hx, hlast, hin, hframes, hfocus, hc _ _ hcomp⟩

/-- A phrase can begin at the state and the cursor. -/
structure Begins (limit : Option Nat) (s : State) (c : Category) (k : Cursor) : Prop where
  operand : ∃ closable, s.focus = .operand closable ∧ (closable = true → k.peek.kind ≠ .rparen)
  ready : s.level.Ready c
  minus : c = .power ∨ c = .primary → k.peek.kind ≠ .minus
  last : s.last = k.last
  depth : s.depth = k.depth
  within : s.Within limit

/-- The routine of the category does at the cursor what the reader does. -/
def Agrees (limit : Option Nat) (c : Category) (k : Cursor) : Prop :=
  ∀ s, Begins limit s c k → Sim (s.run limit k.rest) (Reads (s.run limit k.rest) limit s.frames s.level c)
    (read limit c k)

/-- The arguments of the call `f` at `offset` have been read with the parenthesis behind them. If they
are more than one or none, this is the reader's error. -/
def Ends (x : Except ParseError Expr) (limit : Option Nat) (frames : List Frame) (level : Level)
    (f : Func) (offset : Nat) (p : Parsed (List Expr) n) : Prop :=
  (∃ a, p.value = [a] ∧ Behind x limit frames level .primary (.call f a) 0 p.next) ∨
    p.value.length ≠ 1 ∧ x = .error (.argumentCountMismatch offset p.value.length)

/-! ## Single tokens -/

theorem sim_consume {kind : Token.Kind} {expected : Expected} {post : Parsed β n → Prop}
    {f : Parsed Unit k.rest.length → Result β n} (heof : only kind .eof = none)
    (hnone : k.peek.kind ≠ kind →
      x = .error (.unexpectedToken k.peek.offset expected k.peek.kind))
    (hsome : ∀ t, k.accept (only kind) = some t → Sim x post (f t)) :
    Sim x post ((k.consume kind expected).bind f) := by
  unfold Cursor.consume
  split
  · next t ht => exact hsome t ht
  · next ht => exact hnone (only_eq_none (use_peek ht heof))

/-- Where the counter may be raised, the reader goes on, and otherwise both fail. -/
theorem sim_permit {use : Token.Kind → Option α} {t : Parsed α k.rest.length} {offset : Nat}
    {post : Parsed β n → Prop} {f : Unit → Result β n} (focus : Focus) (frames : List Frame)
    (level : Level) (ht : k.accept use = some t) (hx : x = s.run limit k.rest) (hs : s.Within limit)
    (hstep : ∀ u, use u.kind = some t.value → u.offset = t.next.last →
      s.Steps u focus frames level ∧ s.blamed u = offset)
    (hdepth : ∀ s' : State, s'.frames = frames → s'.level = level → s'.depth = k.depth + 1)
    (h : ∀ s' : State, s'.focus = focus → s'.frames = frames → s'.level = level →
      s'.last = t.next.last → s'.depth = t.next.deeper.depth → s'.Within limit →
      x = s'.run limit t.next.rest → Sim x post (f ())) :
    Sim x post ((t.next.permit limit offset).bind f) := by
  obtain ⟨u, hrest, huse, hlast⟩ := cons_of_accept ht
  obtain ⟨hsteps, hblamed⟩ := hstep u huse hlast.symm
  obtain ⟨s', hfocus, hframes, hlevel, hlast', hrun⟩ := hsteps.run hs
  have hd : s'.depth = t.next.deeper.depth := by
    rw [hdepth s' hframes hlevel, Cursor.deeper, depth_of_accept ht]
  have hpermit : s'.Within limit ↔ limit.all (t.next.depth + 1 ≤ ·) = true := by
    rw [Within, hd]
    rfl
  rw [hrest] at hx
  unfold Cursor.permit
  obtain ⟨hin, hrun⟩ | ⟨hdeep, hrun⟩ := hrun
  · rw [if_pos (hpermit.mp hin)]
    exact h s' hfocus hframes hlevel (hlast'.trans hlast.symm) hd hin (hx.trans (hrun _))
  · rw [if_neg (mt hpermit.mpr hdeep)]
    exact hx.trans ((hrun _).trans (by rw [hblamed]))

/-- The reader and the routine go on alike behind an operator or a parenthesis. -/
theorem sim_descend {use : Token.Kind → Option α} {t : Parsed α k.rest.length}
    {post : Parsed β n → Prop} {f : Parsed Expr t.next.deeper.rest.length → Result β n}
    (frames : List Frame) (level : Level) (ht : k.accept use = some t) (hx : x = s.run limit k.rest) (hs : s.Within limit)
    (hstep : ∀ u, use u.kind = some t.value →
      s.Steps u (.operand false) frames level ∧ s.blamed u = u.offset)
    (hdepth : ∀ s' : State, s'.frames = frames → s'.level = level → s'.depth = k.depth + 1)
    (hready : level.Ready c) (hc : ¬(c = .power ∨ c = .primary)) (h : Agrees limit c t.next.deeper)
    (hf : ∀ p, p.next.depth = k.depth + 1 → Reads x limit frames level c p → Sim x post (f p)) :
    Sim x post ((t.next.permit limit t.next.last).bind fun _ => (read limit c t.next.deeper).bind f) := by
  refine sim_permit (.operand false) frames level ht hx hs ?_ hdepth ?_
  · intro u huse hlast
    obtain ⟨hsteps, hblamed⟩ := hstep u huse
    exact ⟨hsteps, hblamed.trans hlast⟩
  · rintro s' hfocus rfl rfl hlast hd hin rfl
    have hbegins : Begins limit s' c t.next.deeper :=
      ⟨⟨false, hfocus, nofun⟩, hready, fun h => absurd h hc, hlast, hd, hin⟩
    refine (h s' hbegins).bind (balanced_read limit c _) fun p hp => hf p ?_
    rw [hp, Cursor.deeper, depth_of_accept ht]

/-! ## Routines -/

theorem chain_steps {a b : Expr} {m : Nat} {op : BinOp} {l : Level}
    (hop : c = .expression ∧ (op = .add ∨ op = .sub) ∨ c = .term ∧ (op = .mul ∨ op = .div))
    (hready : level.Ready c) (hcomp : level.Completes c a m l b) :
    ∃ l', (∀ (s : State) u, s.focus = .complete b → s.level = l → u.kind = op.kind →
        s.Steps u (.operand false) s.frames l') ∧
      (∀ s s' : State, s.level = level → s'.frames = s.frames → s'.level = l' →
        s'.depth = s.depth + (m + 1)) ∧
      l'.Ready c.operand ∧
      ∀ a' m' l₁ b', l'.Completes c.operand a' m' l₁ b' →
        level.Completes c (.binary op a a') (m + 1) l₁ b' := by
  obtain ⟨rfl, hop⟩ | ⟨rfl, hop⟩ := hop
  · refine ⟨l.add b op, ?_, ?_, ⟨rfl, rfl⟩, fun _ _ _ _ => hcomp.sum⟩
    · rintro s u hs rfl hu
      exact State.step_sum hop hs hu
    · rintro s s' rfl hf hl
      exact State.depth_sum hf hready hcomp hl
  · refine ⟨l.mul b op, ?_, ?_, trivial, fun _ _ _ _ => hcomp.product⟩
    · rintro s u hs rfl hu
      exact State.step_product hop hs hu
    · rintro s s' rfl hf hl
      exact State.depth_product hf hready hcomp hl

end Descent

end Parser

end CurvePlot
