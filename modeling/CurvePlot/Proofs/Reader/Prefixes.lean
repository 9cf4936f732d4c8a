import CurvePlot.Proofs.Reader.Moves

/-! What the reader has read.

A state that some tokens lead to holds these tokens (`State.Holds`): the ones before the innermost
open parenthesis, the operators behind it with the operands before them, and the operand that was
read last. What is missing of a level is told by what completes it: whatever phrase follows a
waiting operator, both together are a phrase again. Every use of a token keeps that (`Holds.move`), so
what is read to the end is an expression (`Holds.finish`). -/

namespace CurvePlot

open CurvePlot.Expr (Category Derives)

namespace Parser

/-! ## Levels -/

/-- Behind the tokens, a phrase of the category `c` completes the chain to one of `d`. -/
def Chain.Holds (ch : Chain) (c d : Category) (ts : List Token.Kind) : Prop :=
  ∀ us a, Derives c us a → Derives d (ts ++ us) (ch.apply a)

/-- Behind the tokens, an operand completes the waiting operators. -/
def Pending.Holds (ps : List Pending) (ts : List Token.Kind) : Prop :=
  ∀ us a, Derives .unary us a → Derives .unary (ts ++ us) (ps.foldl Pending.apply a)

/-- The tokens of a level: those of its sum, of its product and of its waiting operators. -/
def Level.Holds (l : Level) (ts : List Token.Kind) : Prop :=
  ∃ us vs ws, ts = us ++ (vs ++ ws) ∧ l.sum.Holds .term .expression us ∧
    l.product.Holds .unary .term vs ∧ Pending.Holds l.pending ws

namespace Level.Holds

variable {l : Level} {ts us : List Token.Kind} {a : Expr} {op : BinOp}

theorem sum_empty : Chain.Holds {} .term .expression [] := fun _ _ h => .term h

theorem product_empty : Chain.Holds {} .unary .term [] := fun _ _ h => .unary h

theorem pending_nil : Pending.Holds [] [] := fun _ _ h => h

theorem empty : ({} : Level).Holds [] :=
  ⟨[], [], [], rfl, sum_empty, product_empty, pending_nil⟩

theorem expression (h : l.Holds ts) (ha : Derives .primary us a) :
    Derives .expression (ts ++ us) (l.expression a) := by
  obtain ⟨vs, ws, xs, rfl, hsum, hprod, hpend⟩ := h
  rw [List.append_assoc, List.append_assoc]
  exact hsum _ _ (hprod _ _ (hpend _ _ (.power (.primary ha))))

theorem add (h : l.Holds ts) (ha : Derives .primary us a) (hop : op = .add ∨ op = .sub) :
    (l.add a op).Holds (ts ++ us ++ [op.kind]) := by
  refine ⟨_, [], [], by rw [List.append_nil, List.append_nil], ?_, product_empty, pending_nil⟩
  intro vs b hb
  rw [List.append_assoc, List.singleton_append]
  exact .sum hop (h.expression ha) hb

theorem mul (h : l.Holds ts) (ha : Derives .primary us a) (hop : op = .mul ∨ op = .div) :
    (l.mul a op).Holds (ts ++ us ++ [op.kind]) := by
  obtain ⟨vs, ws, xs, rfl, hsum, hprod, hpend⟩ := h
  refine ⟨vs, ws ++ (xs ++ us) ++ [op.kind], [], by simp only [List.append_assoc, List.append_nil],
    hsum, ?_, pending_nil⟩
  intro ys b hb
  rw [List.append_assoc, List.singleton_append]
  exact .product hop (hprod _ _ (hpend _ _ (.power (.primary ha)))) hb

theorem neg (h : l.Holds ts) : (l.wait .neg).Holds (ts ++ [.minus]) := by
  obtain ⟨vs, ws, xs, rfl, hsum, hprod, hpend⟩ := h
  refine ⟨vs, ws, xs ++ [.minus], by simp only [List.append_assoc], hsum, hprod, ?_⟩
  intro ys b hb
  rw [List.append_assoc, List.singleton_append]
  exact hpend _ _ (.neg hb)

theorem pow (h : l.Holds ts) (ha : Derives .primary us a) :
    (l.wait (.pow a)).Holds (ts ++ us ++ [.caret]) := by
  obtain ⟨vs, ws, xs, rfl, hsum, hprod, hpend⟩ := h
  refine ⟨vs, ws, xs ++ (us ++ [.caret]), by simp only [List.append_assoc], hsum, hprod, ?_⟩
  intro ys b hb
  rw [List.append_assoc, List.append_assoc, List.singleton_append]
  exact hpend _ _ (.power (.pow ha hb))

end Level.Holds

/-! ## Open parentheses -/

/-- The tokens up to the innermost open parenthesis and, in a call, up to the last comma. -/
def Frame.Hold : List Frame → List Token.Kind → Prop
  | [], ts => ts = []
  | ⟨.group, l⟩ :: fs, ts =>
    ∃ us vs, ts = us ++ (vs ++ [.lparen]) ∧ Hold fs us ∧ l.Holds vs
  | ⟨.call f _ before, l⟩ :: fs, ts =>
    ∃ us vs ws, ts = us ++ (vs ++ .ident f.name :: .lparen :: ws) ∧ Hold fs us ∧ l.Holds vs ∧
      (before = 0 → ws = [])

/-- The tokens behind the last operator. -/
def Focus.Holds : Focus → List Token.Kind → Prop
  | .operand _, ts => ts = []
  | .name f _, ts => ts = [.ident f.name]
  | .complete a, ts => Derives .primary ts a

/-- The tokens that a state has read. -/
def State.Holds (s : State) (ts : List Token.Kind) : Prop :=
  ∃ us vs ws, ts = us ++ (vs ++ ws) ∧ Frame.Hold s.frames us ∧ s.level.Holds vs ∧ s.focus.Holds ws

namespace State.Holds

variable {s s' : State} {t : Token} {ts : List Token.Kind} {a : Expr} {limit : Option Nat}

theorem initial : ({} : State).Holds [] := ⟨[], [], [], rfl, rfl, .empty, rfl⟩

theorem move {focus : Focus} {frames : List Frame} {level : Level} {last : Nat} (h : s.Holds ts)
    (hm : s.Move t focus frames level) : State.Holds ⟨focus, level, frames, last⟩ (ts ++ [t.kind]) := by
  obtain ⟨us, vs, ws, rfl, hframes, hlevel, hfocus⟩ := h
  simp only [List.append_assoc]
  cases hm with
  | number hs ht =>
    rw [hs] at hfocus
    obtain rfl : ws = [] := hfocus
    rw [ht]
    exact ⟨us, vs, _, rfl, hframes, hlevel, .number⟩
  | operand hs ht hn =>
    rw [hs] at hfocus
    obtain rfl : ws = [] := hfocus
    rw [ht]
    exact ⟨us, vs, _, rfl, hframes, hlevel, Name.derives_of_resolve hn⟩
  | function hs ht =>
    rw [hs] at hfocus
    obtain rfl : ws = [] := hfocus
    rw [ht]
    exact ⟨us, vs, _, rfl, hframes, hlevel, rfl⟩
  | neg hs ht =>
    rw [hs] at hfocus
    obtain rfl : ws = [] := hfocus
    refine ⟨us, vs ++ [.minus], [], ?_, hframes, hlevel.neg, rfl⟩
    rw [ht, List.append_nil, List.nil_append]
  | group hs ht =>
    rw [hs] at hfocus
    obtain rfl : ws = [] := hfocus
    refine ⟨us ++ (vs ++ [.lparen]), [], [], ?_, ⟨us, vs, rfl, hframes, hlevel⟩, .empty, rfl⟩
    rw [ht, List.append_nil, List.append_nil, List.nil_append]
  | @call f o hs ht =>
    rw [hs] at hfocus
    obtain rfl : ws = [.ident f.name] := hfocus
    refine ⟨_, [], [], ?_, ⟨us, vs, [], rfl, hframes, hlevel, fun _ => rfl⟩, .empty, rfl⟩
    simp only [ht, List.append_nil, List.singleton_append]
  | sum hop hs ht =>
    rw [hs] at hfocus
    refine ⟨us, _, [], ?_, hframes, hlevel.add hfocus hop, rfl⟩
    simp only [ht, List.append_assoc, List.append_nil]
  | product hop hs ht =>
    rw [hs] at hfocus
    refine ⟨us, _, [], ?_, hframes, hlevel.mul hfocus hop, rfl⟩
    simp only [ht, List.append_assoc, List.append_nil]
  | pow hs ht =>
    rw [hs] at hfocus
    refine ⟨us, _, [], ?_, hframes, hlevel.pow hfocus, rfl⟩
    simp only [ht, List.append_assoc, List.append_nil]
  | closeGroup hs ht hf =>
    rw [hs] at hfocus
    rw [hf] at hframes
    obtain ⟨us, xs, rfl, hfs, hl⟩ := hframes
    refine ⟨us, xs, _, ?_, hfs, hl, Derives.group (hlevel.expression hfocus)⟩
    simp only [ht, List.append_assoc, List.cons_append, List.nil_append]
  | closeCall hs ht hf =>
    rw [hs] at hfocus
    rw [hf] at hframes
    obtain ⟨us, xs, ys, rfl, hfs, hl, hys⟩ := hframes
    rw [hys rfl]
    refine ⟨us, xs, _, ?_, hfs, hl, Derives.call (hlevel.expression hfocus)⟩
    simp only [ht, List.append_assoc, List.cons_append, List.nil_append]
  | nextArgument hs ht hf =>
    rw [hf] at hframes
    obtain ⟨us, xs, ys, rfl, hfs, hl, -⟩ := hframes
    refine ⟨_, [], [], ?_, ⟨us, xs, ys ++ (vs ++ (ws ++ [.comma])), rfl, hfs, hl, nofun⟩, .empty, rfl⟩
    simp only [ht, List.append_assoc, List.cons_append, List.append_nil]

theorem of_feed {us : List Token} (h : ({} : State).feed limit us = .ok s) :
    s.Holds (us.map (·.kind)) := by
  refine invariant_of_feed (P := fun s us => s.Holds (us.map (·.kind))) initial (fun hs hm => ?_) h
  rw [List.map_append]
  exact hs.move hm

/-- A state that can end the input holds an expression. -/
theorem finish {o : Nat} (h : s.Holds ts) (h' : s.finish o = .ok a) :
    Derives .expression ts a := by
  obtain ⟨us, vs, ws, rfl, hframes, hlevel, hfocus⟩ := h
  unfold State.finish at h'
  split at h'
  · next b hs hf =>
    cases h'
    rw [hs] at hfocus
    rw [hf] at hframes
    obtain rfl : us = [] := hframes
    exact hlevel.expression hfocus
  · cases h'

end State.Holds

end Parser

end CurvePlot
