import CurvePlot.Proofs.Grammar.Arguments
import CurvePlot.Proofs.Reader.Phrases

/-! What the reader does with calls of any number of arguments.

Tokens of the shape of a phrase are read to their end, to an operand, unless a call among them has the
wrong number of arguments (`Shape.takes`). Only the open parentheses matter for that: which operators
wait inside of them decides on trees and not on errors. -/

namespace CurvePlot

open CurvePlot.Expr (Category Shape)

namespace Parser

namespace State

variable {s s₁ : State} {t : Token} {ts us : List Token} {frames frames' : List Frame} {a : Expr}

/-- Without a limit, the tokens lead to an operand inside the parentheses `frames`, unless they have a
call with the wrong number of arguments. -/
def Takes (s : State) (ts : List Token) (frames : List Frame) : Prop :=
  (∃ s' a, s.feed none ts = .ok s' ∧ s'.focus = .complete a ∧ s'.frames = frames) ∨
    ∃ offset found, s.feed none ts = .error (.argumentCountMismatch offset found)

namespace Takes

theorem append (h : s.Takes ts frames)
    (h' : ∀ (s' : State) a, s'.focus = .complete a → s'.frames = frames → s'.Takes us frames') :
    s.Takes (ts ++ us) frames' := by
  obtain ⟨s', a, hs, ha, hf⟩ | ⟨offset, found, hs⟩ := h
  · have hus : s.feed none (ts ++ us) = s'.feed none us := feed_append hs
    have h := h' s' a ha hf
    rwa [Takes, ← hus] at h
  · exact .inr ⟨offset, found, feed_append_error hs⟩

theorem cons {focus : Focus} {level : Level} (h : s.Steps t focus frames level)
    (h' : ∀ s' : State, s'.focus = focus → s'.frames = frames → s'.Takes us frames') :
    s.Takes (t :: us) frames' := by
  obtain ⟨s', hs, hfocus, hframes, -⟩ := h
  have hus : s.feed none (t :: us) = s'.feed none us := feed_cons hs
  have h := h' s' hfocus hframes
  rwa [Takes, ← hus] at h

theorem nil (ha : s.focus = .complete a) (hf : s.frames = frames) : s.Takes [] frames :=
  .inl ⟨s, a, rfl, ha, hf⟩

theorem single {level : Level} (h : s.Steps t (.complete a) frames level) : s.Takes [t] frames :=
  cons h fun _ => nil

end Takes

/-! ## Arguments -/

/-- A call ends behind an argument, whether this is the only one or not. -/
theorem takes_rparen {f : Func} {o k : Nat} {l : Level} {fs : List Frame}
    (hs : s.focus = .complete a) (hf : s.frames = ⟨.call f o k, l⟩ :: fs) (ht : t.kind = .rparen) :
    s.Takes [t] fs := by
  by_cases hk : k = 0
  · subst hk
    exact .single (step_close_call hs hf ht)
  · have h : s.step none t = .error (.argumentCountMismatch o (k + 1)) := by
      simp only [step, read, hs, readOperator, ht, close, hf, if_neg hk]
      rfl
    exact .inr ⟨o, k + 1, by simp only [feed, h]; rfl⟩

/-- A call ends without arguments. -/
theorem takes_rparen_closable {f : Func} {o k : Nat} {l : Level} {fs : List Frame}
    (hs : s.focus = .operand true) (hf : s.frames = ⟨.call f o k, l⟩ :: fs) (ht : t.kind = .rparen) :
    s.Takes [t] frames := by
  have h : s.step none t = .error (.argumentCountMismatch o k) := by
    simp only [step, read, hs, readOperand, ht, hf]
    rfl
  exact .inr ⟨o, k, by simp only [feed, h]; rfl⟩

end State

open State

/-- Tokens of these kinds are taken wherever an operand has to follow. -/
def Takable (ks : List Token.Kind) : Prop :=
  ∀ (ts : List Token) (s : State) (closable : Bool), ts.map (·.kind) = ks →
    s.focus = .operand closable → s.Takes ts s.frames

namespace Takable

variable {ks ls : List Token.Kind} {k : Token.Kind} {args : List (List Token.Kind)}

/-- An operator between two operands is taken if it is read behind the first one. -/
theorem operator (hks : Takable ks) (hls : Takable ls)
    (h : ∀ (s : State) (t : Token) a, s.focus = .complete a → t.kind = k →
      ∃ level, s.Steps t (.operand false) s.frames level) : Takable (ks ++ k :: ls) := by
  intro ts s closable hts hs
  obtain ⟨us, vs, rfl, hus, hvs⟩ := List.map_eq_append_iff.mp hts
  obtain ⟨t, vs, rfl, ht, hvs⟩ := List.map_eq_cons_iff.mp hvs
  refine (hks us s closable hus hs).append fun s₁ a ha hf => ?_
  obtain ⟨level, hstep⟩ := h s₁ t a ha ht
  refine .cons hstep fun s₂ hs₂ hf₂ => ?_
  have hvs := hls vs s₂ false hvs hs₂
  rwa [hf₂, hf] at hvs

theorem operand (h : ∀ (s : State) (t : Token) (closable : Bool), s.focus = .operand closable →
    t.kind = k → ∃ a, s.Steps t (.complete a) s.frames s.level) : Takable [k] := by
  intro ts s closable hts hs
  obtain ⟨t, rfl, ht⟩ := List.map_eq_singleton_iff.mp hts
  obtain ⟨a, hstep⟩ := h s t closable hs ht
  exact .single hstep

theorem neg (h : Takable ks) : Takable (.minus :: ks) := by
  intro ts s closable hts hs
  obtain ⟨t, us, rfl, ht, hus⟩ := List.map_eq_cons_iff.mp hts
  refine .cons (step_neg hs ht) fun s₁ hs₁ hf₁ => ?_
  have hus := h us s₁ false hus hs₁
  rwa [hf₁] at hus

theorem group (h : Takable ks) : Takable (.lparen :: (ks ++ [.rparen])) := by
  intro ts s closable hts hs
  obtain ⟨t, ts, rfl, ht, hts⟩ := List.map_eq_cons_iff.mp hts
  obtain ⟨us, vs, rfl, hus, hvs⟩ := List.map_eq_append_iff.mp hts
  obtain ⟨u, rfl, hu⟩ := List.map_eq_singleton_iff.mp hvs
  refine .cons (step_group hs ht) fun s₁ hs₁ hf₁ => ?_
  refine (h us s₁ false hus hs₁).append fun s₂ a ha hf₂ => ?_
  exact .single (step_close_group ha (hf₂.trans hf₁) hu)

/-- Arguments are taken up to the end of their call. -/
theorem arguments (h : ∀ ks ∈ args, Takable ks) {ts : List Token} {s : State} {closable : Bool}
    {f : Func} {o k : Nat} {l : Level} {fs : List Frame}
    (hts : ts.map (·.kind) = [Token.Kind.comma].intercalate args ++ [.rparen])
    (hs : s.focus = .operand closable) (hf : s.frames = ⟨.call f o k, l⟩ :: fs)
    (hargs : args = [] → closable = true) : s.Takes ts fs := by
  induction args generalizing ts s closable k with
  | nil =>
    obtain ⟨t, rfl, ht⟩ := List.map_eq_singleton_iff.mp hts
    exact takes_rparen_closable (hargs rfl ▸ hs) hf ht
  | cons ks args ih =>
    rw [List.forall_mem_cons] at h
    by_cases hne : args = []
    · rw [hne, List.intercalate_singleton] at hts
      obtain ⟨us, vs, rfl, hus, hvs⟩ := List.map_eq_append_iff.mp hts
      obtain ⟨t, rfl, ht⟩ := List.map_eq_singleton_iff.mp hvs
      refine (h.1 us s closable hus hs).append fun s₁ a ha hf₁ => ?_
      exact takes_rparen ha (hf₁.trans hf) ht
    · rw [List.intercalate_cons_of_ne_nil hne, List.append_assoc, List.append_assoc] at hts
      obtain ⟨us, vs, rfl, hus, hvs⟩ := List.map_eq_append_iff.mp hts
      obtain ⟨t, vs, rfl, ht, hvs⟩ := List.map_eq_cons_iff.mp hvs
      refine (h.1 us s closable hus hs).append fun s₁ a ha hf₁ => ?_
      refine .cons (step_comma ha (hf₁.trans hf) ht) fun s₂ hs₂ hf₂ => ?_
      exact ih h.2 hvs hs₂ hf₂ fun hnil => absurd hnil hne

theorem call {f : Func} (h : ∀ ks ∈ args, Takable ks) :
    Takable (.ident f.name :: .lparen :: ([Token.Kind.comma].intercalate args ++ [.rparen])) := by
  intro ts s closable hts hs
  obtain ⟨t, ts, rfl, ht, hts⟩ := List.map_eq_cons_iff.mp hts
  obtain ⟨u, ts, rfl, hu, hts⟩ := List.map_eq_cons_iff.mp hts
  refine .cons (step_function hs ht (Name.resolve_func f)) fun s₁ hs₁ hf₁ => ?_
  refine .cons (step_call hs₁ hu) fun s₂ hs₂ hf₂ => ?_
  rw [hf₁] at hf₂
  exact arguments h hts hs₂ hf₂ fun _ => rfl

end Takable

end Parser

open CurvePlot.Parser CurvePlot.Parser.State

/-- **Every shape is taken** wherever an operand has to follow. -/
theorem Expr.Shape.takable {c : Category} {ks : List Token.Kind} (h : Shape c ks) : Takable ks := by
  induction h with
  | term _ ih | unary _ ih | power _ ih | primary _ ih => exact ih
  | sum hop _ _ iha ihb => exact .operator iha ihb fun _ _ _ hs ht => ⟨_, step_sum hop hs ht⟩
  | product hop _ _ iha ihb => exact .operator iha ihb fun _ _ _ hs ht => ⟨_, step_product hop hs ht⟩
  | pow _ _ iha ihb => exact .operator iha ihb fun _ _ _ hs ht => ⟨_, step_pow hs ht⟩
  | neg _ ih => exact .neg ih
  | number => exact .operand fun _ _ _ hs ht => ⟨_, step_number hs ht⟩
  | var => exact .operand fun _ _ _ hs ht => ⟨_, step_operand hs ht Name.resolve_variableName⟩
  | @const c => exact .operand fun _ _ _ hs ht => ⟨_, step_operand hs ht (Name.resolve_constant c)⟩
  | call _ ih => exact .call ih
  | group _ ih => exact .group ih

end CurvePlot
