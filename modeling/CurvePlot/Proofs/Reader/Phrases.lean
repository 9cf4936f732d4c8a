import CurvePlot.Proofs.Grammar.Nesting
import CurvePlot.Proofs.Reader.Depth

/-! What the reader does with a phrase of the grammar.

It leaves the open parentheses alone and comes to an operand with a level that completes it to the
tree of the phrase (`Level.Completes`), and on its way no state is deeper than the phrase is nested
(`Nests.readable`). -/

namespace CurvePlot

open CurvePlot.Expr (Category Derives Nests)

/-! ## The names that the reader knows -/

theorem Name.resolve_variableName : resolve Expr.variableName = some (.operand .var) := rfl

theorem Name.resolve_constant (c : Constant) : resolve c.name = some (.operand (.const c)) := by
  cases c <;> rfl

theorem Name.resolve_func (f : Func) : resolve f.name = some (.function f) := by
  cases f <;> rfl

theorem Constant.name_of_ofName? {s : String} {c : Constant} (h : ofName? s = some c) :
    s = c.name := by
  have hs := List.find?_some (p := fun c : Constant => c.name == s) h
  exact (beq_iff_eq.mp hs).symm

theorem Func.name_of_ofName? {s : String} {f : Func} (h : ofName? s = some f) : s = f.name := by
  have hs := List.find?_some (p := fun f : Func => f.name == s) h
  exact (beq_iff_eq.mp hs).symm

/-- A name that stands for an operand is a phrase by itself. -/
theorem Name.derives_of_resolve {s : String} {a : Expr} (h : resolve s = some (.operand a)) :
    Derives .primary [.ident s] a := by
  unfold resolve at h
  split at h
  · next hs =>
    cases h
    rw [beq_iff_eq.mp hs]
    exact .var
  · split at h
    · next c hc =>
      cases h
      rw [Constant.name_of_ofName? hc]
      exact .const
    · simp at h

theorem Name.name_of_resolve {s : String} {f : Func} (h : resolve s = some (.function f)) :
    s = f.name := by
  unfold resolve at h
  split at h
  · cases h
  · split at h
    · cases h
    · obtain ⟨g, hg, hgf⟩ := Option.map_eq_some_iff.mp h
      cases hgf
      exact Func.name_of_ofName? hg

namespace Parser

namespace Level

/-- A phrase of the category `c` can begin at the level `l`. -/
def Ready : Category → Level → Prop
  | .expression, l => l = {}
  | .term, l => l.product = {} ∧ l.pending = []
  | .unary, _ | .power, _ | .primary, _ => True

/-- From the level `l`, a phrase of the category `c` for the tree `a`, which is a chain of `k`
operators, leads to the level `l'` and its last operand `b`. -/
def Completes (l : Level) (c : Category) (a : Expr) (k : Nat) (l' : Level) (b : Expr) : Prop :=
  match c with
  | .expression => l'.expression b = a ∧ l'.sum.length = k
  | .term => l'.sum = l.sum ∧ l'.term b = a ∧ l'.product.length = k
  | .unary | .power => l'.sum = l.sum ∧ l'.product = l.product ∧ l'.factor b = l.factor a
  | .primary => l' = l ∧ b = a

theorem depth_empty : ({} : Level).depth = 0 := rfl

theorem depth_add {l : Level} {a : Expr} {op : BinOp} :
    (l.add a op).depth = l.sum.length + 1 := rfl

theorem depth_mul {l : Level} {a : Expr} {op : BinOp} :
    (l.mul a op).depth = l.sum.length + (l.product.length + 1) := rfl

theorem depth_wait {l : Level} {p : Pending} : (l.wait p).depth = l.depth + 1 := by
  simp only [depth, wait, List.length_cons]
  omega

namespace Completes

variable {l l₁ l₂ : Level} {a b e e₁ : Expr} {k m : Nat} {op : BinOp}

theorem term (h : l.Completes .term a k l₁ e) (hl : l.Ready .expression) :
    l.Completes .expression a 0 l₁ e := by
  obtain ⟨hsum, hterm, -⟩ := h
  obtain rfl : l = {} := hl
  refine ⟨?_, ?_⟩
  · rw [expression, hsum, hterm]; rfl
  · rw [hsum]

theorem unary (h : l.Completes .unary a k l₁ e) (hl : l.Ready .term) : l.Completes .term a 0 l₁ e := by
  obtain ⟨hsum, hprod, hfac⟩ := h
  refine ⟨hsum, ?_, ?_⟩
  · rw [Level.term, hprod, hl.1, hfac, factor, hl.2]; rfl
  · rw [hprod, hl.1]

theorem primary (h : l.Completes .primary a k l₁ e) : l.Completes .power a 0 l₁ e := by
  obtain ⟨rfl, rfl⟩ := h
  exact ⟨rfl, rfl, rfl⟩

theorem sum (ha : l.Completes .expression a k l₁ e) (hb : (l₁.add e op).Completes .term b m l₂ e₁) :
    l.Completes .expression (.binary op a b) (k + 1) l₂ e₁ := by
  obtain ⟨hexp, hlen⟩ := ha
  obtain ⟨hsum, hterm, -⟩ := hb
  refine ⟨?_, ?_⟩
  · rw [expression, hsum, hterm, ← hexp]; rfl
  · rw [hsum, ← hlen]; rfl

theorem product (ha : l.Completes .term a k l₁ e) (hb : (l₁.mul e op).Completes .unary b m l₂ e₁) :
    l.Completes .term (.binary op a b) (k + 1) l₂ e₁ := by
  obtain ⟨hsum₁, hterm, hlen⟩ := ha
  obtain ⟨hsum, hprod, hfac⟩ := hb
  refine ⟨?_, ?_, ?_⟩
  · rw [hsum, ← hsum₁]; rfl
  · rw [Level.term, hprod, hfac, ← hterm]; rfl
  · rw [hprod, ← hlen]; rfl

theorem neg (h : (l.wait .neg).Completes .unary a k l₁ e) : l.Completes .unary (.neg a) 0 l₁ e := h

theorem pow (h : (l.wait (.pow a)).Completes .unary b k l₁ e) :
    l.Completes .power (.binary .pow a b) 0 l₁ e := h

end Completes

end Level

namespace State

variable {s : State} {t : Token} {a : Expr}

/-! ## Single tokens -/

/-- Without a limit, reading the token `t` leads to a state with this focus, these open parentheses
and this level. -/
def Steps (s : State) (t : Token) (focus : Focus) (frames : List Frame) (level : Level) : Prop :=
  ∃ s', s.step none t = .ok s' ∧ s'.focus = focus ∧ s'.frames = frames ∧ s'.level = level

/-- Noting the position of a token leaves the rest of the state as it was read. -/
theorem step_of_read {s₁ : State} (h : s.read none t = .ok s₁) :
    s.Steps t s₁.focus s₁.frames s₁.level :=
  ⟨{ s₁ with last := t.offset }, by rw [step, h]; rfl, rfl, rfl, rfl⟩

theorem step_number {v : Float} {b : Bool} (hs : s.focus = .operand b) (ht : t.kind = .number v) :
    s.Steps t (.complete (.number v)) s.frames s.level := by
  have h : s.read none t = .ok (s.complete (.number v)) := by
    simp only [read, hs, readOperand, ht]
  exact step_of_read h

theorem step_operand {name : String} {b : Bool} (hs : s.focus = .operand b)
    (ht : t.kind = .ident name) (hn : Name.resolve name = some (.operand a)) :
    s.Steps t (.complete a) s.frames s.level := by
  have h : s.read none t = .ok (s.complete a) := by
    simp only [read, hs, readOperand, ht, hn]
  exact step_of_read h

theorem step_function {name : String} {f : Func} {b : Bool} (hs : s.focus = .operand b)
    (ht : t.kind = .ident name) (hn : Name.resolve name = some (.function f)) :
    s.Steps t (.name f t.offset) s.frames s.level := by
  have h : s.read none t = .ok { s with focus := .name f t.offset } := by
    simp only [read, hs, readOperand, ht, hn]
  exact step_of_read h

theorem step_neg {b : Bool} (hs : s.focus = .operand b) (ht : t.kind = .minus) :
    s.Steps t (.operand false) s.frames (s.level.wait .neg) := by
  have h : s.read none t =
      .ok { s with focus := .operand false, level := s.level.wait .neg } := by
    simp only [read, hs, readOperand, ht]
    rfl
  exact step_of_read h

theorem step_group {b : Bool} (hs : s.focus = .operand b) (ht : t.kind = .lparen) :
    s.Steps t (.operand false) (⟨.group, s.level⟩ :: s.frames) {} := by
  have h : s.read none t = .ok { s.enter .group with focus := .operand false } := by
    simp only [read, hs, readOperand, ht]
    rfl
  exact step_of_read h

theorem step_call {f : Func} {o : Nat} (hs : s.focus = .name f o) (ht : t.kind = .lparen) :
    s.Steps t (.operand true) (⟨.call f o 0, s.level⟩ :: s.frames) {} := by
  have h : s.read none t = .ok { s.enter (.call f o 0) with focus := .operand true } := by
    simp only [read, hs, ht]
    rfl
  exact step_of_read h

theorem step_sum {op : BinOp} (hop : op = .add ∨ op = .sub) (hs : s.focus = .complete a)
    (ht : t.kind = op.kind) : s.Steps t (.operand false) s.frames (s.level.add a op) := by
  have h : s.read none t =
      .ok { s with focus := .operand false, level := s.level.add a op } := by
    rcases hop with rfl | rfl <;> simp only [read, hs, readOperator, ht, BinOp.kind] <;> rfl
  exact step_of_read h

theorem step_product {op : BinOp} (hop : op = .mul ∨ op = .div) (hs : s.focus = .complete a)
    (ht : t.kind = op.kind) : s.Steps t (.operand false) s.frames (s.level.mul a op) := by
  have h : s.read none t =
      .ok { s with focus := .operand false, level := s.level.mul a op } := by
    rcases hop with rfl | rfl <;> simp only [read, hs, readOperator, ht, BinOp.kind] <;> rfl
  exact step_of_read h

theorem step_pow (hs : s.focus = .complete a) (ht : t.kind = .caret) :
    s.Steps t (.operand false) s.frames (s.level.wait (.pow a)) := by
  have h : s.read none t =
      .ok { s with focus := .operand false, level := s.level.wait (.pow a) } := by
    simp only [read, hs, readOperator, ht]
    rfl
  exact step_of_read h

theorem step_close_group {l : Level} {fs : List Frame} (hs : s.focus = .complete a)
    (hf : s.frames = ⟨.group, l⟩ :: fs) (ht : t.kind = .rparen) :
    s.Steps t (.complete (s.level.expression a)) fs l := by
  have h : s.read none t = .ok ⟨.complete (s.level.expression a), l, fs, s.last⟩ := by
    simp only [read, hs, readOperator, ht, close, hf]
  exact step_of_read h

theorem step_close_call {f : Func} {o : Nat} {l : Level} {fs : List Frame}
    (hs : s.focus = .complete a) (hf : s.frames = ⟨.call f o 0, l⟩ :: fs) (ht : t.kind = .rparen) :
    s.Steps t (.complete (.call f (s.level.expression a))) fs l := by
  have h : s.read none t = .ok ⟨.complete (.call f (s.level.expression a)), l, fs, s.last⟩ := by
    simp only [read, hs, readOperator, ht, close, hf]
    rfl
  exact step_of_read h

theorem step_comma {f : Func} {o k : Nat} {l : Level} {fs : List Frame} (hs : s.focus = .complete a)
    (hf : s.frames = ⟨.call f o k, l⟩ :: fs) (ht : t.kind = .comma) :
    s.Steps t (.operand false) (⟨.call f o (k + 1), l⟩ :: fs) {} := by
  have h : s.read none t = .ok ⟨.operand false, {}, ⟨.call f o (k + 1), l⟩ :: fs, s.last⟩ := by
    simp only [read, hs, readOperator, ht, nextArgument, hf]
  exact step_of_read h

/-! ## Depths -/

theorem depth_eq {s' : State} (hf : s'.frames = s.frames) (hl : s'.level = s.level) :
    s'.depth = s.depth := by
  rw [depth, hf, hl, depth]

theorem depth_inside {s' : State} {o : Opener} (hf : s'.frames = ⟨o, s.level⟩ :: s.frames)
    (hl : s'.level = {}) : s'.depth = s.depth + 1 := by
  simp only [depth, hf, hl, List.foldr_cons, Level.depth_empty]
  omega

/-- States inside the same parentheses differ in depth as their levels do. -/
theorem depth_add_level {s' : State} (h : s'.frames = s.frames) :
    s'.depth + s.level.depth = s.depth + s'.level.depth := by
  simp only [depth, h]
  omega

theorem depth_wait {s' : State} {p : Pending} (hf : s'.frames = s.frames)
    (hl : s'.level = s.level.wait p) : s'.depth = s.depth + 1 := by
  have h := depth_add_level hf
  rw [hl, Level.depth_wait] at h
  omega

theorem depth_sum {s' : State} {l : Level} {b : Expr} {k : Nat} {op : BinOp}
    (hf : s'.frames = s.frames) (hl : s.level.Ready .expression)
    (h : s.level.Completes .expression a k l b) (hl' : s'.level = l.add b op) :
    s'.depth = s.depth + (k + 1) := by
  have hadd := depth_add_level hf
  have hs : s.level = {} := hl
  rwa [hl', hs, Level.depth_add, h.2, Level.depth_empty] at hadd

theorem depth_product {s' : State} {l : Level} {b : Expr} {k : Nat} {op : BinOp}
    (hf : s'.frames = s.frames) (hl : s.level.Ready .term) (h : s.level.Completes .term a k l b)
    (hl' : s'.level = l.mul b op) : s'.depth = s.depth + (k + 1) := by
  have hadd := depth_add_level hf
  rw [hl', Level.depth_mul, h.2.2, h.1, Level.depth, hl.1, hl.2] at hadd
  simp only [List.length_nil] at hadd
  omega

/-! ## Runs over several tokens -/

/-- Without a limit, the tokens lead from `s` to `s'`, and the deepest state on the way is `p`
deep. -/
structure Leads (s : State) (ts : List Token) (s' : State) (p : Nat) : Prop where
  feed : s.feed none ts = .ok s'
  peak : s.peak ts = p

namespace Leads

variable {s' s'' : State} {ts us : List Token} {p q : Nat}

theorem depth_le (h : s.Leads ts s' p) : s'.depth ≤ p := h.peak ▸ depth_le_peak_of_feed h.feed

theorem append (h : s.Leads ts s' p) (h' : s'.Leads us s'' q) : s.Leads (ts ++ us) s'' (max p q) where
  feed := by rw [feed_append h.feed, h'.feed]
  peak := by rw [peak_append h.feed, h.peak, h'.peak]

theorem single (h : s.step none t = .ok s') : s.Leads [t] s' (max s.depth s'.depth) where
  feed := by rw [feed_cons h, feed_nil]
  peak := by rw [peak_cons h]; rfl

theorem cons (h : s.step none t = .ok s') (h' : s'.Leads us s'' q) :
    s.Leads (t :: us) s'' (max s.depth q) where
  feed := by rw [feed_cons h, h'.feed]
  peak := by rw [peak_cons h, h'.peak]

/-- A phrase, an operator behind it that `n` operators are around its operand with, and that
operand. -/
theorem operator {s₁ s₂ s₃ : State} {n : Nat} (h : s.Leads ts s₁ (s.depth + p))
    (ht : s₁.step none t = .ok s₂) (hd : s₂.depth = s.depth + n)
    (h' : s₂.Leads us s₃ (s₂.depth + q)) :
    s.Leads (ts ++ t :: us) s₃ (s.depth + max p (n + q)) := by
  have hle : s₁.depth ≤ s.depth + p := h.depth_le
  have hp := h.append (cons ht h')
  rwa [show max (s.depth + p) (max s₁.depth (s₂.depth + q)) = s.depth + max p (n + q) by omega]
    at hp

/-- A minus sign or a parenthesis, what follows it, and a parenthesis that closes it again. -/
theorem inside {s₁ s₂ : State} (ht : s.step none t = .ok s₁) (hd : s₁.depth = s.depth + 1)
    (h : s₁.Leads us s₂ (s₁.depth + q)) : s.Leads (t :: us) s₂ (s.depth + (1 + q)) := by
  have hp := cons ht h
  rwa [show max s.depth (s₁.depth + q) = s.depth + (1 + q) by omega] at hp

theorem closed {s₁ s₂ s₃ : State} {u : Token} (ht : s.step none t = .ok s₁)
    (hd : s₁.depth = s.depth + 1) (h : s₁.Leads us s₂ (s₁.depth + q))
    (hu : s₂.step none u = .ok s₃) (hd₃ : s₃.depth = s.depth) :
    s.Leads (t :: (us ++ [u])) s₃ (s.depth + (1 + q)) := by
  have hle : s₂.depth ≤ s₁.depth + q := h.depth_le
  have hp := h.append (single hu)
  rw [show max (s₁.depth + q) (max s₂.depth s₃.depth) = s₁.depth + q by omega] at hp
  exact inside ht hd hp

end Leads

/-! ## Phrases -/

/-- From the state `s`, the tokens are read as a phrase of the category `c` for the tree `a`. -/
def Reads (s : State) (ts : List Token) (c : Category) (a : Expr) (k p : Nat) : Prop :=
  ∃ s', s.Leads ts s' (s.depth + p) ∧ s'.frames = s.frames ∧
    ∃ b, s'.focus = .complete b ∧ s.level.Completes c a k s'.level b

end State

open State

/-- The tokens are read as a phrase from every state that one of its category can begin in. -/
def Readable (ts : List Token) (c : Category) (a : Expr) (k p : Nat) : Prop :=
  ∀ (s : State) (closable : Bool), s.focus = .operand closable → s.level.Ready c →
    s.Reads ts c a k p

namespace Readable

variable {ts us : List Token} {t u : Token} {a b : Expr} {op : BinOp} {k l p q : Nat}

/-! ### Phrases of one category as such of the next -/

theorem term (h : Readable ts .term a k p) : Readable ts .expression a 0 p := by
  intro s closable hs hl
  obtain ⟨s', hp, hf, e, he, hcomp⟩ := h s closable hs (by rw [hl]; exact ⟨rfl, rfl⟩)
  exact ⟨s', hp, hf, e, he, hcomp.term hl⟩

theorem unary (h : Readable ts .unary a k p) : Readable ts .term a 0 p := by
  intro s closable hs hl
  obtain ⟨s', hp, hf, e, he, hcomp⟩ := h s closable hs trivial
  exact ⟨s', hp, hf, e, he, hcomp.unary hl⟩

theorem power (h : Readable ts .power a k p) : Readable ts .unary a 0 p :=
  fun s closable hs _ => h s closable hs trivial

theorem primary (h : Readable ts .primary a k p) : Readable ts .power a 0 p := by
  intro s closable hs _
  obtain ⟨s', hp, hf, e, he, hcomp⟩ := h s closable hs trivial
  exact ⟨s', hp, hf, e, he, hcomp.primary⟩

/-! ### Operators -/

theorem sum (hop : op = .add ∨ op = .sub) (ht : t.kind = op.kind)
    (ha : Readable ts .expression a k p) (hb : Readable us .term b l q) :
    Readable (ts ++ t :: us) .expression (.binary op a b) (k + 1) (max p (k + 1 + q)) := by
  intro s closable hs hl
  obtain ⟨s₁, hp₁, hf₁, e₁, he₁, hcomp₁⟩ := ha s closable hs hl
  obtain ⟨s₂, hstep, hs₂, hf₂, hl₂⟩ := step_sum hop he₁ ht
  obtain ⟨s₃, hp₃, hf₃, e₃, he₃, hcomp₃⟩ := hb s₂ _ hs₂ (by rw [hl₂]; exact ⟨rfl, rfl⟩)
  have hd : s₂.depth = s.depth + (k + 1) := depth_sum (hf₂.trans hf₁) hl hcomp₁ hl₂
  rw [hl₂] at hcomp₃
  exact ⟨s₃, hp₁.operator hstep hd hp₃, hf₃.trans (hf₂.trans hf₁), e₃, he₃, hcomp₁.sum hcomp₃⟩

theorem product (hop : op = .mul ∨ op = .div) (ht : t.kind = op.kind)
    (ha : Readable ts .term a k p) (hb : Readable us .unary b l q) :
    Readable (ts ++ t :: us) .term (.binary op a b) (k + 1) (max p (k + 1 + q)) := by
  intro s closable hs hl
  obtain ⟨s₁, hp₁, hf₁, e₁, he₁, hcomp₁⟩ := ha s closable hs hl
  obtain ⟨s₂, hstep, hs₂, hf₂, hl₂⟩ := step_product hop he₁ ht
  obtain ⟨s₃, hp₃, hf₃, e₃, he₃, hcomp₃⟩ := hb s₂ _ hs₂ trivial
  have hd : s₂.depth = s.depth + (k + 1) := depth_product (hf₂.trans hf₁) hl hcomp₁ hl₂
  rw [hl₂] at hcomp₃
  exact ⟨s₃, hp₁.operator hstep hd hp₃, hf₃.trans (hf₂.trans hf₁), e₃, he₃, hcomp₁.product hcomp₃⟩

theorem neg (ht : t.kind = .minus) (h : Readable ts .unary a k p) :
    Readable (t :: ts) .unary (.neg a) 0 (1 + p) := by
  intro s closable hs _
  obtain ⟨s₁, hstep, hs₁, hf₁, hl₁⟩ := step_neg hs ht
  obtain ⟨s₂, hp₂, hf₂, e₂, he₂, hcomp₂⟩ := h s₁ _ hs₁ trivial
  rw [hl₁] at hcomp₂
  exact ⟨s₂, .inside hstep (depth_wait hf₁ hl₁) hp₂, hf₂.trans hf₁, e₂, he₂, hcomp₂.neg⟩

theorem pow (ht : t.kind = .caret) (ha : Readable ts .primary a k p)
    (hb : Readable us .unary b l q) :
    Readable (ts ++ t :: us) .power (.binary .pow a b) 0 (max p (1 + q)) := by
  intro s closable hs _
  obtain ⟨s₁, hp₁, hf₁, e₁, he₁, hlev, rfl⟩ := ha s closable hs trivial
  obtain ⟨s₂, hstep, hs₂, hf₂, hl₂⟩ := step_pow he₁ ht
  obtain ⟨s₃, hp₃, hf₃, e₃, he₃, hcomp₃⟩ := hb s₂ _ hs₂ trivial
  rw [hlev] at hl₂
  have hd : s₂.depth = s.depth + 1 := depth_wait (hf₂.trans hf₁) hl₂
  rw [hl₂] at hcomp₃
  exact ⟨s₃, hp₁.operator hstep hd hp₃, hf₃.trans (hf₂.trans hf₁), e₃, he₃, hcomp₃.pow⟩

/-! ### Operands -/

theorem operand (h : ∀ (s : State) (closable : Bool), s.focus = .operand closable →
    s.Steps t (.complete a) s.frames s.level) : Readable [t] .primary a 0 0 := by
  intro s closable hs _
  obtain ⟨s', hstep, hs', hf, hl⟩ := h s closable hs
  have hp := Leads.single hstep
  rw [depth_eq hf hl, Nat.max_self] at hp
  exact ⟨s', hp, hf, a, hs', hl, rfl⟩

theorem call {f : Func} {v : Token} (ht : t.kind = .ident f.name) (hu : u.kind = .lparen)
    (hv : v.kind = .rparen) (h : Readable ts .expression a k p) :
    Readable (t :: u :: (ts ++ [v])) .primary (.call f a) 0 (1 + p) := by
  intro s closable hs _
  obtain ⟨s₁, hstep₁, hs₁, hf₁, hl₁⟩ := step_function hs ht (Name.resolve_func f)
  obtain ⟨s₂, hstep₂, hs₂, hf₂, hl₂⟩ := step_call hs₁ hu
  obtain ⟨s₃, hp₃, hf₃, e₃, he₃, hexp₃, -⟩ := h s₂ _ hs₂ hl₂
  obtain ⟨s₄, hstep₄, hs₄, hf₄, hl₄⟩ := step_close_call he₃ (hf₃.trans hf₂) hv
  have hd₁ : s₁.depth = s.depth := depth_eq hf₁ hl₁
  have hp := Leads.cons hstep₁ (.closed hstep₂ (depth_inside hf₂ hl₂) hp₃ hstep₄ (depth_eq hf₄ hl₄))
  rw [hd₁, Nat.max_eq_right (Nat.le_add_right ..)] at hp
  exact ⟨s₄, hp, hf₄.trans hf₁, _, hs₄, hl₄.trans hl₁, by rw [hexp₃]⟩

theorem group (ht : t.kind = .lparen) (hu : u.kind = .rparen) (h : Readable ts .expression a k p) :
    Readable (t :: (ts ++ [u])) .primary a 0 (1 + p) := by
  intro s closable hs _
  obtain ⟨s₁, hstep₁, hs₁, hf₁, hl₁⟩ := step_group hs ht
  obtain ⟨s₂, hp₂, hf₂, e₂, he₂, hexp₂, -⟩ := h s₁ _ hs₁ hl₁
  obtain ⟨s₃, hstep₃, hs₃, hf₃, hl₃⟩ := step_close_group he₂ (hf₂.trans hf₁) hu
  have hp := Leads.closed hstep₁ (depth_inside hf₁ hl₁) hp₂ hstep₃ (depth_eq hf₃ hl₃)
  exact ⟨s₃, hp, hf₃, _, hs₃, hl₃, hexp₂⟩

end Readable

end Parser

open CurvePlot.Parser CurvePlot.Parser.State

/-- **Every phrase is read**, from every state that it can begin in. -/
theorem Expr.Nests.readable {c : Category} {ks : List Token.Kind} {a : Expr} {k p : Nat}
    (h : Nests c ks a k p) {ts : List Token} (hts : ts.map (·.kind) = ks) :
    Readable ts c a k p := by
  induction h generalizing ts with
  | term _ ih => exact (ih hts).term
  | unary _ ih => exact (ih hts).unary
  | power _ ih => exact (ih hts).power
  | primary _ ih => exact (ih hts).primary
  | sum hop _ _ iha ihb =>
    obtain ⟨us, vs, rfl, hus, hvs⟩ := List.map_eq_append_iff.mp hts
    obtain ⟨t, vs, rfl, ht, hvs⟩ := List.map_eq_cons_iff.mp hvs
    exact .sum hop ht (iha hus) (ihb hvs)
  | product hop _ _ iha ihb =>
    obtain ⟨us, vs, rfl, hus, hvs⟩ := List.map_eq_append_iff.mp hts
    obtain ⟨t, vs, rfl, ht, hvs⟩ := List.map_eq_cons_iff.mp hvs
    exact .product hop ht (iha hus) (ihb hvs)
  | neg _ ih =>
    obtain ⟨t, us, rfl, ht, hus⟩ := List.map_eq_cons_iff.mp hts
    exact .neg ht (ih hus)
  | pow _ _ iha ihb =>
    obtain ⟨us, vs, rfl, hus, hvs⟩ := List.map_eq_append_iff.mp hts
    obtain ⟨t, vs, rfl, ht, hvs⟩ := List.map_eq_cons_iff.mp hvs
    exact .pow ht (iha hus) (ihb hvs)
  | number =>
    obtain ⟨t, rfl, ht⟩ := List.map_eq_singleton_iff.mp hts
    exact .operand fun s _ hs => step_number hs ht
  | var =>
    obtain ⟨t, rfl, ht⟩ := List.map_eq_singleton_iff.mp hts
    exact .operand fun s _ hs => step_operand hs ht Name.resolve_variableName
  | @const c =>
    obtain ⟨t, rfl, ht⟩ := List.map_eq_singleton_iff.mp hts
    exact .operand fun s _ hs => step_operand hs ht (Name.resolve_constant c)
  | call _ ih =>
    obtain ⟨t, ts, rfl, ht, hts⟩ := List.map_eq_cons_iff.mp hts
    obtain ⟨u, ts, rfl, hu, hts⟩ := List.map_eq_cons_iff.mp hts
    obtain ⟨us, vs, rfl, hus, hvs⟩ := List.map_eq_append_iff.mp hts
    obtain ⟨v, rfl, hv⟩ := List.map_eq_singleton_iff.mp hvs
    exact .call ht hu hv (ih hus)
  | group _ ih =>
    obtain ⟨t, ts, rfl, ht, hts⟩ := List.map_eq_cons_iff.mp hts
    obtain ⟨us, vs, rfl, hus, hvs⟩ := List.map_eq_append_iff.mp hts
    obtain ⟨u, rfl, hu⟩ := List.map_eq_singleton_iff.mp hvs
    exact .group ht hu (ih hus)

end CurvePlot
