import CurvePlot.Proofs.Reader.Phrases

/-! What a token does to the state of the reader.

`State.Move` has one rule for each use of a token. Every token that is read, with or without a limit,
is used by one of them (`move_of_step`), so that what all rules keep holds behind all tokens that are
read (`invariant_of_feed`). An error says which token it is about, or that the call of the innermost
parenthesis is at fault (`blames_of_step`). -/

namespace CurvePlot.Parser.State

/-- The token `t` leads from the state `s` to a focus, open parentheses and a level. -/
inductive Move (s : State) (t : Token) : Focus → List Frame → Level → Prop where
  | number {b v} : s.focus = .operand b → t.kind = .number v →
      Move s t (.complete (.number v)) s.frames s.level
  | operand {b name a} : s.focus = .operand b → t.kind = .ident name →
      Name.resolve name = some (.operand a) → Move s t (.complete a) s.frames s.level
  | function {b f} : s.focus = .operand b → t.kind = .ident f.name →
      Move s t (.name f t.offset) s.frames s.level
  | neg {b} : s.focus = .operand b → t.kind = .minus →
      Move s t (.operand false) s.frames (s.level.wait .neg)
  | group {b} : s.focus = .operand b → t.kind = .lparen →
      Move s t (.operand false) (⟨.group, s.level⟩ :: s.frames) {}
  | call {f o} : s.focus = .name f o → t.kind = .lparen →
      Move s t (.operand true) (⟨.call f o 0, s.level⟩ :: s.frames) {}
  | sum {a op} : op = .add ∨ op = .sub → s.focus = .complete a → t.kind = op.kind →
      Move s t (.operand false) s.frames (s.level.add a op)
  | product {a op} : op = .mul ∨ op = .div → s.focus = .complete a → t.kind = op.kind →
      Move s t (.operand false) s.frames (s.level.mul a op)
  | pow {a} : s.focus = .complete a → t.kind = .caret →
      Move s t (.operand false) s.frames (s.level.wait (.pow a))
  | closeGroup {a l fs} : s.focus = .complete a → t.kind = .rparen → s.frames = ⟨.group, l⟩ :: fs →
      Move s t (.complete (s.level.expression a)) fs l
  | closeCall {a f o l fs} : s.focus = .complete a → t.kind = .rparen →
      s.frames = ⟨.call f o 0, l⟩ :: fs →
      Move s t (.complete (.call f (s.level.expression a))) fs l
  | nextArgument {a f o k l fs} : s.focus = .complete a → t.kind = .comma →
      s.frames = ⟨.call f o k, l⟩ :: fs →
      Move s t (.operand false) (⟨.call f o (k + 1), l⟩ :: fs) {}

variable {s s' : State} {t : Token} {limit : Option Nat} {a : Expr} {o : Nat} {e : ParseError}

/-! ## Tokens that are read -/

theorem eq_of_await {b : Bool} (h : s.await limit o b = .ok s') :
    s' = { s with focus := .operand b } := by
  unfold await at h
  split at h <;> cases h
  rfl

theorem move_of_readOperand {b : Bool} (hs : s.focus = .operand b)
    (h : s.readOperand limit t b = .ok s') : s.Move t s'.focus s'.frames s'.level := by
  unfold readOperand at h
  split at h
  · next v ht => cases h; exact .number hs ht
  · next name ht =>
    split at h
    · next a hn => cases h; exact .operand hs ht hn
    · next f hn => cases h; exact .function hs (Name.name_of_resolve hn ▸ ht)
    · cases h
  · next ht => cases eq_of_await h; exact .group hs ht
  · next ht => cases eq_of_await h; exact .neg hs ht
  · split at h <;> cases h
  · cases h

theorem move_of_close (hs : s.focus = .complete a) (ht : t.kind = .rparen)
    (h : s.close t a = .ok s') : s.Move t s'.focus s'.frames s'.level := by
  unfold close at h
  split at h
  · cases h
  · next l fs hf => cases h; exact .closeGroup hs ht hf
  · next f o k l fs hf =>
    split at h
    · next hk => cases h; exact .closeCall hs ht (hk ▸ hf)
    · cases h

theorem move_of_nextArgument (hs : s.focus = .complete a) (ht : t.kind = .comma)
    (h : s.nextArgument t = .ok s') : s.Move t s'.focus s'.frames s'.level := by
  unfold nextArgument at h
  split at h
  · next f o k l fs hf => cases h; exact .nextArgument hs ht hf
  · cases h

theorem move_of_readOperator (hs : s.focus = .complete a)
    (h : s.readOperator limit t a = .ok s') : s.Move t s'.focus s'.frames s'.level := by
  unfold readOperator at h
  split at h
  · next ht => cases eq_of_await h; exact .sum (.inl rfl) hs ht
  · next ht => cases eq_of_await h; exact .sum (.inr rfl) hs ht
  · next ht => cases eq_of_await h; exact .product (.inl rfl) hs ht
  · next ht => cases eq_of_await h; exact .product (.inr rfl) hs ht
  · next ht => cases eq_of_await h; exact .pow hs ht
  · next ht => exact move_of_close hs ht h
  · next ht => exact move_of_nextArgument hs ht h
  · cases h

theorem move_of_read (h : s.read limit t = .ok s') : s.Move t s'.focus s'.frames s'.level := by
  unfold read at h
  split at h
  · next b hs => exact move_of_readOperand hs h
  · next f o hs =>
    split at h
    · next ht => cases eq_of_await h; exact .call hs ht
    · cases h
  · next a hs => exact move_of_readOperator hs h

/-- Every token that is read is used by a rule, and its position is noted. -/
theorem move_of_step (h : s.step limit t = .ok s') :
    s.Move t s'.focus s'.frames s'.level ∧ s'.last = t.offset := by
  obtain ⟨s₁, hs₁, rfl⟩ := Except.map_eq_ok.mp h
  have hmove : s.Move t s₁.focus s₁.frames s₁.level := move_of_read hs₁
  exact ⟨hmove, rfl⟩

theorem Move.ne_eof {focus : Focus} {frames : List Frame} {level : Level}
    (h : s.Move t focus frames level) : t.kind ≠ .eof := by
  intro ht
  cases h with
  | sum hop _ hk | product hop _ hk =>
    rcases hop with rfl | rfl <;> exact absurd (ht.symm.trans hk) (by decide)
  | _ => simp_all

/-- What every use of a token keeps holds of the state behind all tokens that are read. -/
theorem invariant_of_feed {P : State → List Token → Prop} {ts : List Token} (h₀ : P {} [])
    (hmove : ∀ {s : State} {us : List Token} {t : Token} {focus frames level last}, P s us →
      s.Move t focus frames level → P ⟨focus, level, frames, last⟩ (us ++ [t]))
    (h : ({} : State).feed limit ts = .ok s) : P s ts := by
  have hfeed : ∀ (ts : List Token) {us : List Token} {s₀ : State}, P s₀ us →
      s₀.feed limit ts = .ok s → P s (us ++ ts) := by
    intro ts
    induction ts with
    | nil =>
      intro us s₀ hP hs
      cases hs
      rwa [List.append_nil]
    | cons t ts ih =>
      intro us s₀ hP hs
      obtain ⟨s₁, hs₁, hs⟩ := feed_cons_eq_ok.mp hs
      rw [List.append_cons]
      exact ih (hmove hP (move_of_step hs₁).1) hs
  exact hfeed ts h₀ h

/-! ## Tokens that are refused -/

/-- The error is about the token `t`, or the call whose parenthesis is the innermost open one. -/
def Blames (s : State) (t : Token) : ParseError → Prop
  | .emptyExpression => False
  | .unexpectedToken offset _ found => offset = t.offset ∧ found = t.kind
  | .unknownIdentifier offset name => offset = t.offset ∧ t.kind = .ident name
  | .argumentCountMismatch offset _ => ∃ f before l fs, s.frames = ⟨.call f offset before, l⟩ :: fs
  | .trailingInput offset => offset = t.offset
  | .tooDeep offset => offset = s.blamed t

theorem blames_unexpected : s.Blames t (s.unexpected t) := by
  unfold unexpected
  split
  · rfl
  · exact ⟨rfl, rfl⟩

theorem error_of_await {b : Bool} (h : s.await limit o b = .error e) : e = .tooDeep o := by
  unfold await at h
  split at h <;> cases h
  rfl

theorem blames_of_readOperand {b : Bool} (hs : s.focus = .operand b)
    (h : s.readOperand limit t b = .error e) : s.Blames t e := by
  have hdeep : s.blamed t = t.offset := by rw [blamed, hs]
  unfold readOperand at h
  split at h
  · cases h
  · next name ht =>
    split at h <;> cases h
    exact ⟨rfl, ht⟩
  · rw [error_of_await h]; exact hdeep.symm
  · rw [error_of_await h]; exact hdeep.symm
  · split at h
    · next f o k l fs hf => cases h; exact ⟨f, k, l, fs, hf⟩
    · cases h; exact blames_unexpected
  · cases h; exact blames_unexpected

theorem blames_of_close (h : s.close t a = .error e) : s.Blames t e := by
  unfold close at h
  split at h
  · cases h; exact blames_unexpected
  · cases h
  · next f o k l fs hf =>
    split at h <;> cases h
    exact ⟨f, k, l, fs, hf⟩

theorem blames_of_readOperator (hs : s.focus = .complete a)
    (h : s.readOperator limit t a = .error e) : s.Blames t e := by
  have hdeep : s.blamed t = t.offset := by rw [blamed, hs]
  unfold readOperator at h
  split at h
  iterate 5 rw [error_of_await h]; exact hdeep.symm
  · exact blames_of_close h
  · unfold nextArgument at h
    split at h <;> cases h
    exact blames_unexpected
  · cases h; exact blames_unexpected

theorem blames_of_step (h : s.step limit t = .error e) : s.Blames t e := by
  have h := Except.map_eq_error.mp h
  unfold read at h
  split at h
  · next b hs => exact blames_of_readOperand hs h
  · next f o hs =>
    split at h
    · rw [error_of_await h, Blames, blamed, hs]
    · cases h; exact blames_unexpected
  · next a hs => exact blames_of_readOperator hs h

theorem blames_of_finish (ht : t.kind = .eof) (h : s.finish t.offset = .error e) :
    s.Blames t e := by
  unfold finish at h
  split at h <;> cases h
  exact ⟨rfl, ht.symm⟩

end CurvePlot.Parser.State
