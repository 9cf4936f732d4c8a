import CurvePlot.Expr.Parser
import CurvePlot.Proofs.Except

/-! Reading with a limit on the depth of the reader's states and reading without one.

A limit does nothing but to check the depth behind every token (`State.step_some`). So a list of
tokens is read as it is without a limit, or it is refused as too deep, and which of the two is told
by the greatest depth on the way, `State.peak` (`State.feed_some`). -/

namespace CurvePlot.Parser.State

variable {s s' : State} {t : Token} {ts us : List Token} {n : Nat} {limit : Option Nat}

/-- Reads tokens none of which ends the input. -/
def feed (limit : Option Nat) (s : State) : List Token → Except ParseError State
  | [] => .ok s
  | t :: ts => do (← s.step limit t).feed limit ts

theorem feed_nil : s.feed limit [] = .ok s := rfl

theorem feed_cons (h : s.step limit t = .ok s') :
    s.feed limit (t :: ts) = s'.feed limit ts := by
  simp only [feed, h]
  rfl

theorem feed_cons_eq_ok :
    s.feed limit (t :: ts) = .ok s' ↔ ∃ s₁, s.step limit t = .ok s₁ ∧ s₁.feed limit ts = .ok s' :=
  Except.bind_eq_ok

theorem feed_append (h : s.feed limit ts = .ok s') :
    s.feed limit (ts ++ us) = s'.feed limit us := by
  induction ts generalizing s with
  | nil => cases h; rfl
  | cons t ts ih =>
    obtain ⟨s₁, hs, h⟩ := feed_cons_eq_ok.mp h
    rw [List.cons_append, feed_cons hs, ih h]

theorem feed_append_error {e : ParseError} (h : s.feed limit ts = .error e) :
    s.feed limit (ts ++ us) = .error e := by
  induction ts generalizing s with
  | nil => cases h
  | cons t ts ih =>
    obtain h | ⟨s₁, hs, h⟩ := Except.bind_eq_error.mp h
    · simp only [List.cons_append, feed, h]
      rfl
    · rw [List.cons_append, feed_cons hs, ih h]

theorem run_of_eof (ht : t.kind = .eof) : s.run limit (t :: ts) = s.finish t.offset := by
  rw [run, if_pos ht]

theorem run_cons (ht : t.kind ≠ .eof) :
    s.run limit (t :: ts) = (s.step limit t).bind (·.run limit ts) := by
  rw [run, if_neg ht]
  rfl

/-- The end of the input is read behind all tokens before it. -/
theorem run_append {t : Token} (hts : ∀ u ∈ ts, u.kind ≠ .eof) (ht : t.kind = .eof) :
    s.run limit (ts ++ t :: us) = (s.feed limit ts).bind (·.finish t.offset) := by
  induction ts generalizing s with
  | nil => exact run_of_eof ht
  | cons u ts ih =>
    rw [List.cons_append, run_cons (hts u List.mem_cons_self), feed]
    cases hs : s.step limit u with
    | error e => rfl
    | ok s₁ => exact ih fun u hu => hts u (List.mem_cons_of_mem _ hu)

/-! ## The limit checks the depth behind every token -/

/-- What an error of depth at the token `t` is reported at: a call has its name blamed. -/
def blamed (s : State) (t : Token) : Nat :=
  match s.focus with
  | .name _ offset => offset
  | _ => t.offset

/-- Accepts the state that a step leads to if it is not too deep. -/
def check (n offset : Nat) (r : Except ParseError State) : Except ParseError State := do
  let s ← r
  if s.depth ≤ n then .ok s else .error (.tooDeep offset)

theorem check_ok (h : s.depth ≤ n) {o : Nat} : check n o (.ok s) = .ok s := if_pos h

theorem check_deep (h : n < s.depth) {o : Nat} : check n o (.ok s) = .error (.tooDeep o) :=
  if_neg (Nat.not_le_of_lt h)

theorem await_some {o : Nat} {c : Bool} :
    s.await (some n) o c = check n o (s.await none o c) := by
  simp only [await, Option.all_some, decide_eq_true_eq]
  rfl

theorem close_check (h : s.depth ≤ n) {a : Expr} :
    s.close t a = check n t.offset (s.close t a) := by
  unfold close
  split
  · rfl
  · next outer frames hf =>
    refine (check_ok (Nat.le_trans ?_ h)).symm
    simp only [depth, hf, List.foldr_cons]
    omega
  · next f o k outer frames hf =>
    split
    · refine (check_ok (Nat.le_trans ?_ h)).symm
      simp only [depth, hf, List.foldr_cons]
      omega
    · rfl

theorem nextArgument_check (h : s.depth ≤ n) :
    s.nextArgument t = check n t.offset (s.nextArgument t) := by
  unfold nextArgument
  split
  · next f o k outer frames hf =>
    refine (check_ok (Nat.le_trans ?_ h)).symm
    simp only [depth, hf, List.foldr_cons, Level.depth, List.length_nil]
    omega
  · rfl

theorem readOperand_some (h : s.depth ≤ n) {c : Bool} :
    s.readOperand (some n) t c = check n t.offset (s.readOperand none t c) := by
  unfold readOperand
  split
  · next v _ => exact (check_ok (s := s.complete (.number v)) h).symm
  · split
    · next a _ => exact (check_ok (s := s.complete a) h).symm
    · next f _ => exact (check_ok (s := { s with focus := .name f t.offset }) h).symm
    · rfl
  · exact await_some
  · exact await_some
  · split <;> rfl
  · rfl

theorem readOperator_some (h : s.depth ≤ n) {a : Expr} :
    s.readOperator (some n) t a = check n t.offset (s.readOperator none t a) := by
  unfold readOperator
  split
  iterate 5 exact await_some
  · exact close_check h
  · exact nextArgument_check h
  · rfl

theorem read_some (h : s.depth ≤ n) :
    s.read (some n) t = check n (s.blamed t) (s.read none t) := by
  unfold read blamed
  cases s.focus with
  | operand closable => exact readOperand_some h
  | name f offset =>
    dsimp only
    split
    · exact await_some
    · rfl
  | complete a => exact readOperator_some h

/-- A limit checks the depth of the state behind the token and changes nothing else. -/
theorem step_some (h : s.depth ≤ n) :
    s.step (some n) t = check n (s.blamed t) (s.step none t) := by
  unfold step
  rw [read_some h]
  cases s.read none t with
  | error e => rfl
  | ok s' =>
    by_cases hs : s'.depth ≤ n
    · rw [check_ok hs]
      exact (check_ok (s := { s' with last := t.offset }) hs).symm
    · rw [check_deep (Nat.lt_of_not_le hs)]
      exact (check_deep (s := { s' with last := t.offset }) (Nat.lt_of_not_le hs)).symm

/-! ## The greatest depth on the way -/

/-- The greatest depth of the states that the tokens are read in without a limit. -/
def peak (s : State) : List Token → Nat
  | [] => s.depth
  | t :: ts =>
    max s.depth <|
      match s.step none t with
      | .ok s' => s'.peak ts
      | .error _ => 0

theorem depth_le_peak : s.depth ≤ s.peak ts := by
  cases ts with
  | nil => exact Nat.le_refl _
  | cons => exact Nat.le_max_left ..

theorem peak_cons (h : s.step none t = .ok s') : s.peak (t :: ts) = max s.depth (s'.peak ts) := by
  simp only [peak, h]

theorem peak_append (h : s.feed none ts = .ok s') :
    s.peak (ts ++ us) = max (s.peak ts) (s'.peak us) := by
  induction ts generalizing s with
  | nil => cases h; exact (Nat.max_eq_right depth_le_peak).symm
  | cons t ts ih =>
    obtain ⟨s₁, hs, h⟩ := feed_cons_eq_ok.mp h
    rw [List.cons_append, peak_cons hs, peak_cons hs, ih h, Nat.max_assoc]

theorem depth_le_peak_of_feed (h : s.feed none ts = .ok s') : s'.depth ≤ s.peak ts := by
  have hp : s.peak (ts ++ []) = max (s.peak ts) (s'.peak []) := peak_append h
  rw [List.append_nil] at hp
  exact hp ▸ Nat.le_max_right ..

theorem step_some_deep (h : s.depth ≤ n) (hs : s.step none t = .ok s') (hd : n < s'.depth) :
    s.step (some n) t = .error (.tooDeep (s.blamed t)) := by
  rw [step_some h, hs, check_deep hd]

theorem feed_some (ts : List Token) (h : s.depth ≤ n) :
    (s.peak ts ≤ n ∧ s.feed (some n) ts = s.feed none ts) ∨
      (n < s.peak ts ∧ ∃ o, s.feed (some n) ts = .error (.tooDeep o)) := by
  induction ts generalizing s with
  | nil => exact .inl ⟨h, rfl⟩
  | cons t ts ih =>
    have hstep := step_some (t := t) h
    cases hs : s.step none t with
    | error e =>
      rw [hs] at hstep
      refine .inl ⟨by simpa [peak, hs] using h, ?_⟩
      simp only [feed, hs, hstep]
      rfl
    | ok s₁ =>
      rw [peak_cons hs]
      by_cases hd : s₁.depth ≤ n
      · rw [hs, check_ok hd] at hstep
        rw [feed_cons hstep, feed_cons hs]
        rcases ih hd with ⟨hp, hf⟩ | ⟨hp, hf⟩
        · exact .inl ⟨by omega, hf⟩
        · exact .inr ⟨by omega, hf⟩
      · have hd : n < s₁.depth := Nat.lt_of_not_le hd
        have hp : s₁.depth ≤ s₁.peak ts := depth_le_peak
        refine .inr ⟨by omega, s.blamed t, ?_⟩
        simp only [feed, step_some_deep h hs hd]
        rfl

/-- What is read with a limit is read without one, and stays within the limit. -/
theorem feed_none_of_some (h : s.depth ≤ n) (hs : s.feed (some n) ts = .ok s') :
    s.feed none ts = .ok s' ∧ s'.depth ≤ n := by
  obtain ⟨hp, hf⟩ | ⟨-, o, hf⟩ := feed_some ts h
  · rw [hf] at hs
    exact ⟨hs, Nat.le_trans (depth_le_peak_of_feed hs) hp⟩
  · rw [hf] at hs
    cases hs

/-- Errors with a limit are errors without one, or are about the depth. -/
theorem step_none_of_some {e : ParseError} (h : s.depth ≤ n) (hs : s.step (some n) t = .error e) :
    s.step none t = .error e ∨ e = .tooDeep (s.blamed t) := by
  rw [step_some h] at hs
  obtain hs | ⟨s₁, -, hs⟩ := Except.bind_eq_error.mp hs
  · exact .inl hs
  · split at hs <;> cases hs
    exact .inr rfl

end CurvePlot.Parser.State

namespace CurvePlot.Expr

variable {t : Token} {ts : List Token} {limit : Option Nat}

theorem ofTokens_of_eof (ht : t.kind = .eof) : ofTokens limit (t :: ts) = .error .emptyExpression := by
  obtain ⟨kind, offset⟩ := t
  cases ht
  rfl

/-- Reading starts in the empty state unless there is nothing to read. -/
theorem ofTokens_cons (ht : t.kind ≠ .eof) :
    ofTokens limit (t :: ts) = ({} : Parser.State).run limit (t :: ts) := by
  unfold ofTokens
  split
  · next h => cases h
  · next h =>
    cases h
    exact absurd rfl ht
  · rfl

end CurvePlot.Expr
