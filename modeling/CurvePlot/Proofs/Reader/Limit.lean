import CurvePlot.Proofs.Reader.Outline
import CurvePlot.Proofs.Reader.Routines

/-! What the limit on the depth does.

The reader refuses the first operator or opening parenthesis that is nested too deeply, as it counts
them from the beginning of the list (`nesting`), and otherwise reads as without a limit
(`parse_limit`). -/

namespace CurvePlot

/-- Operators and opening parentheses, which tokens are nested in. -/
def Token.Kind.nests : Token.Kind → Bool
  | plus | minus | star | slash | caret | lparen => true
  | number _ | ident _ | rparen | comma | eof => false

namespace Parser

/-- Without a limit, the reader takes the tokens from the beginning. -/
def Consumed (us : List Token) : Prop := ∃ s, ({} : State).feed none us = .ok s

/-- The reader without a limit takes the operator or parenthesis `t` behind the tokens `us`, and it is
nested more than `n` deep. -/
structure DeepAt (n : Nat) (us : List Token) (t : Token) : Prop where
  nests : t.kind.nests = true
  consumed : Consumed (us ++ [t])
  lt_nesting : n < nesting (us ++ [t])

/-- The position that a token is reported at behind the tokens `us`. The parenthesis of a call has the
name of the function reported. -/
def place (us : List Token) (t : Token) : Nat :=
  match us.getLast?, t.kind with
  | some ⟨.ident _, offset⟩, .lparen => offset
  | _, _ => t.offset

theorem place_of_ne {us : List Token} {t : Token} (h : t.kind ≠ .lparen) : place us t = t.offset := by
  unfold place
  split
  · next ht => exact absurd ht h
  · rfl

theorem place_call {us : List Token} {t : Token} {name : String} {offset : Nat}
    (hus : us.getLast? = some ⟨.ident name, offset⟩) (ht : t.kind = .lparen) :
    place us t = offset := by
  rw [place, hus, ht]

theorem place_group {us : List Token} {t : Token}
    (hus : ∀ u ∈ us.getLast?, ∀ name, u.kind ≠ .ident name) : place us t = t.offset := by
  unfold place
  split
  · next hu _ => exact absurd rfl (hus _ hu _)
  · rfl

namespace State

variable {s s' : State} {t : Token} {ts us vs : List Token} {n : Nat} {limit : Option Nat}

/-- Only operators and opening parentheses lead deeper. -/
theorem nests_of_step (h : s.step limit t = .ok s') (hd : s.depth < s'.depth) :
    t.kind.nests = true := by
  obtain ⟨hmove, -⟩ := move_of_step h
  obtain ⟨focus, level, frames, last⟩ := s'
  cases hmove with
  | number | operand | function => exact absurd hd (Nat.lt_irrefl _)
  | neg _ ht | group _ ht | call _ ht | pow _ ht => rw [ht]; rfl
  | sum hop _ ht | product hop _ ht => rcases hop with rfl | rfl <;> rw [ht] <;> rfl
  | closeGroup _ _ hf | closeCall _ _ hf =>
    simp only [depth, hf, List.foldr_cons] at hd
    omega
  | nextArgument _ _ hf =>
    simp only [depth, hf, List.foldr_cons, Level.depth_empty] at hd
    omega

/-- An error of depth is reported at the token, or at the name of the function before it. -/
theorem Remembers.blamed_eq (h : s.Remembers us) (hstep : s.step limit t = .ok s') :
    s.blamed t = place us t := by
  obtain ⟨hmove, -⟩ := move_of_step hstep
  obtain ⟨focus, level, frames, last⟩ := s'
  cases hmove with
  | number hs ht | operand hs ht | function hs ht | neg hs ht | pow hs ht | closeGroup hs ht
  | closeCall hs ht | nextArgument hs ht =>
    rw [blamed, hs, place_of_ne (by simp [ht])]
  | sum hop hs ht | product hop hs ht =>
    rw [blamed, hs, place_of_ne]
    rcases hop with rfl | rfl <;> simp [ht, BinOp.kind]
  | group hs ht => rw [blamed, hs, place_group (h.operand _ hs)]
  | call hs ht => rw [blamed, hs, place_call (h.name _ _ hs) ht]

/-- With a limit, tokens are read as without one up to the first one that leads too deep. -/
theorem run_some (ts : List Token) (h : s.depth ≤ n) :
    (s.peak ts ≤ n ∧ s.run (some n) ts = s.run none ts) ∨
      ∃ us t vs s₁ s₂, ts = us ++ t :: vs ∧ s.peak us ≤ n ∧ s.feed none us = .ok s₁ ∧
        s₁.step none t = .ok s₂ ∧ n < s₂.depth ∧
        s.run (some n) ts = .error (.tooDeep (s₁.blamed t)) := by
  induction ts generalizing s with
  | nil => exact .inl ⟨h, rfl⟩
  | cons t ts ih =>
    have hlimited := step_some (t := t) h
    cases hstep : s.step none t with
    | error e =>
      rw [hstep] at hlimited
      refine .inl ⟨?_, ?_⟩
      · rw [peak, hstep]
        exact Nat.max_le.mpr ⟨h, Nat.zero_le n⟩
      · by_cases ht : t.kind = .eof
        · rw [run_of_eof ht, run_of_eof ht]
        · rw [run_cons ht, run_cons ht, hstep, hlimited]
          rfl
    | ok s₁ =>
      have ht : t.kind ≠ .eof := (move_of_step hstep).1.ne_eof
      rw [hstep] at hlimited
      by_cases hd : s₁.depth ≤ n
      · rw [check_ok hd] at hlimited
        rw [run_cons ht, run_cons ht, hstep, hlimited, peak_cons hstep]
        obtain ⟨hpeak, hrun⟩ | ⟨us, u, vs, s₂, s₃, rfl, hpeak, hus, hu, hdeep, hrun⟩ := ih hd
        · exact .inl ⟨Nat.max_le.mpr ⟨h, hpeak⟩, hrun⟩
        · refine .inr ⟨t :: us, u, vs, s₂, s₃, rfl, ?_, ?_, hu, hdeep, hrun⟩
          · rw [peak_cons hstep]
            exact Nat.max_le.mpr ⟨h, hpeak⟩
          · rw [feed_cons hstep, hus]
      · have hdeep : n < s₁.depth := Nat.lt_of_not_le hd
        rw [check_deep hdeep] at hlimited
        refine .inr ⟨[], t, ts, s, s₁, rfl, h, rfl, hstep, hdeep, ?_⟩
        rw [run_cons ht, hlimited]
        rfl

end State

variable {us vs ts : List Token} {t : Token} {n : Nat}

/-- Nothing is read where the input ends at once. -/
theorem peak_of_peek_eof (h : (⟨ts, 0, 0⟩ : Descent.Cursor).peek.kind = .eof) :
    ({} : State).peak ts ≤ n := by
  cases ts with
  | nil => exact Nat.zero_le n
  | cons t ts =>
    cases hstep : ({} : State).step none t with
    | error e =>
      rw [State.peak, hstep]
      exact Nat.zero_le n
    | ok s => exact absurd h (State.move_of_step hstep).1.ne_eof

/-- Where no state is too deep, no token is. -/
theorem not_deepAt_of_peak (h : ({} : State).peak ts ≤ n) (hts : ts = us ++ t :: vs) :
    ¬DeepAt n us t := by
  rintro ⟨-, ⟨s, hs⟩, hlt⟩
  have hdepth : s.depth ≤ ({} : State).peak (us ++ [t]) := State.depth_le_peak_of_feed hs
  have hpeak : ({} : State).peak (us ++ [t] ++ vs) = max (({} : State).peak (us ++ [t])) (s.peak vs) :=
    State.peak_append hs
  rw [depth_eq_nesting hs] at hdepth
  rw [hts, List.append_cons, hpeak] at h
  omega

end Parser

namespace Expr

open CurvePlot.Parser CurvePlot.Parser.Descent

theorem parse_limit_cases (ts : List Token) :
    ((∀ us t vs, ts = us ++ t :: vs → ¬DeepAt maxDepth us t) ∧ parse ts = ofTokens none ts) ∨
      ∃ us t vs, ts = us ++ t :: vs ∧ DeepAt maxDepth us t ∧
        (∀ us' t' vs', us = us' ++ t' :: vs' → ¬DeepAt maxDepth us' t') ∧
        parse ts = .error (.tooDeep (place us t)) := by
  by_cases heof : (⟨ts, 0, 0⟩ : Cursor).peek.kind = .eof
  · rw [parse, ofTokens_of_peek_eof heof, ofTokens_of_peek_eof heof]
    exact .inl ⟨fun us t vs hts => not_deepAt_of_peak (peak_of_peek_eof heof) hts, rfl⟩
  · rw [parse, ofTokens_of_peek_ne_eof heof, ofTokens_of_peek_ne_eof heof]
    obtain ⟨hpeak, hrun⟩ | ⟨us, t, vs, s₁, s₂, rfl, hpeak, hus, ht, hdeep, hrun⟩ :=
      State.run_some (s := {}) (n := maxDepth) ts (Nat.zero_le _)
    · exact .inl ⟨fun us t vs hts => not_deepAt_of_peak hpeak hts, hrun⟩
    · have hust : ({} : State).feed none (us ++ [t]) = .ok s₂ := by
        rw [State.feed_append hus, State.feed_cons ht, State.feed_nil]
      have hle : s₁.depth ≤ maxDepth := Nat.le_trans (State.depth_le_peak_of_feed hus) hpeak
      refine .inr ⟨us, t, vs, rfl, ?_, fun us' t' vs' hus' => not_deepAt_of_peak hpeak hus', ?_⟩
      · exact
          { nests := State.nests_of_step ht (Nat.lt_of_le_of_lt hle hdeep)
            consumed := ⟨s₂, hust⟩
            lt_nesting := depth_eq_nesting hust ▸ hdeep }
      · rw [hrun, (State.Remembers.of_feed hus).blamed_eq ht]

/-- **The limit is counted exactly.** If no operator or opening parenthesis that the reader takes without
a limit is nested too deeply, it reads the same with the limit, and otherwise it refuses the first
one. The descent with a counter reads the same, and its routines leave the counter as it was and do not
lower it below zero. -/
theorem parse_limit (ts : List Token) :
    (((∀ us t vs, ts = us ++ t :: vs → ¬DeepAt maxDepth us t) ∧ parse ts = ofTokens none ts) ∨
      ∃ us t vs, ts = us ++ t :: vs ∧ DeepAt maxDepth us t ∧
        (∀ us' t' vs', us = us' ++ t' :: vs' → ¬DeepAt maxDepth us' t') ∧
        parse ts = .error (.tooDeep (place us t))) ∧
      (∀ limit, descent limit ts = (ofTokens limit ts).mapError .refused) ∧
      (∀ limit c k, Balanced k.depth (read limit c k)) ∧
      ∀ limit f offset k, Balanced k.depth (Descent.call limit f offset k) :=
  ⟨parse_limit_cases ts, fun limit => descent_eq_ofTokens limit ts, balanced_read, balanced_call⟩

end Expr

end CurvePlot
