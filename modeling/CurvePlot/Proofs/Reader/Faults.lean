import CurvePlot.Proofs.Reader.Grammar
import CurvePlot.Proofs.Reader.Moves

/-! At which token a list of tokens is refused.

All tokens before it are read, and it is not (`ofTokens_eq_error`). The positions that the reader
keeps for later are those of tokens that it has read (`State.Remembers`), so that an error carries the
position of a token of the list (`foundIn_of_ofTokens`). -/

namespace CurvePlot

open CurvePlot.Parser

/-- The error is at a token of the list, of the kind that it is about. A call is found by the name of
its function and the parenthesis behind that. -/
def ParseError.FoundIn (ts : List Token) : ParseError → Prop
  | emptyExpression => ∀ t ∈ ts, t.kind = .eof
  | unexpectedToken offset _ found => ⟨found, offset⟩ ∈ ts
  | unknownIdentifier offset name => ⟨.ident name, offset⟩ ∈ ts
  | argumentCountMismatch offset _ =>
    ∃ f : Func, ∃ paren, [⟨.ident f.name, offset⟩, ⟨.lparen, paren⟩] <:+: ts
  | trailingInput offset | tooDeep offset => ∃ t ∈ ts, t.offset = offset

namespace Parser.State

variable {s s' : State} {t : Token} {ts us : List Token} {limit : Option Nat} {e : ParseError}

/-- The token is not read, or the input must not end there. -/
def Refuses (limit : Option Nat) (s : State) (t : Token) (e : ParseError) : Prop :=
  if t.kind = .eof then s.finish t.offset = .error e else s.step limit t = .error e

theorem Refuses.blames (h : s.Refuses limit t e) : s.Blames t e := by
  unfold Refuses at h
  split at h
  · next ht => exact blames_of_finish ht h
  · exact blames_of_step h

theorem feed_eq_error (h : s.feed limit ts = .error e) :
    ∃ us t vs s', ts = us ++ t :: vs ∧ s.feed limit us = .ok s' ∧ s'.step limit t = .error e := by
  induction ts generalizing s with
  | nil => cases h
  | cons t ts ih =>
    obtain hs | ⟨s₁, hs, h⟩ := Except.bind_eq_error.mp h
    · exact ⟨[], t, ts, s, rfl, rfl, hs⟩
    · obtain ⟨us, u, vs, s', rfl, hus, hu⟩ := ih h
      exact ⟨t :: us, u, vs, s', rfl, (feed_cons hs).trans hus, hu⟩

/-! ## Positions that are kept -/

/-- The name of a function that its parenthesis has to follow was the last token, and the calls with
open parentheses are those of tokens that were read. -/
structure Remembers (s : State) (us : List Token) : Prop where
  name : ∀ f o, s.focus = .name f o → us.getLast? = some ⟨.ident f.name, o⟩
  operand : ∀ b, s.focus = .operand b → ∀ u ∈ us.getLast?, ∀ name, u.kind ≠ .ident name
  calls : ∀ f o before l, ⟨.call f o before, l⟩ ∈ s.frames →
    ∃ paren, [⟨.ident f.name, o⟩, ⟨.lparen, paren⟩] <:+: us

namespace Remembers

theorem initial : ({} : State).Remembers [] where
  name := nofun
  operand := nofun
  calls := nofun

theorem calls_append (h : s.Remembers us) :
    ∀ f o before l, ⟨.call f o before, l⟩ ∈ s.frames →
      ∃ paren, [⟨.ident f.name, o⟩, ⟨.lparen, paren⟩] <:+: us ++ [t] := by
  intro f o before l hf
  obtain ⟨paren, hus⟩ := h.calls f o before l hf
  exact ⟨paren, hus.trans (List.prefix_append _ _).isInfix⟩

/-- After a token that is no name an operand may have to follow. -/
theorem getLast_append (ht : ∀ name, t.kind ≠ .ident name) :
    ∀ u ∈ (us ++ [t]).getLast?, ∀ name, u.kind ≠ .ident name := by
  intro u hu
  rw [List.getLast?_concat] at hu
  cases hu
  exact ht

theorem move {focus : Focus} {frames : List Frame} {level : Level} {last : Nat}
    (h : s.Remembers us) (hm : s.Move t focus frames level) :
    State.Remembers ⟨focus, level, frames, last⟩ (us ++ [t]) := by
  cases hm with
  | number hs ht | operand hs ht => exact ⟨nofun, nofun, h.calls_append⟩
  | @function b f hs ht =>
    refine ⟨?_, nofun, h.calls_append⟩
    rintro f o ⟨⟩
    rw [List.getLast?_concat, ← ht]
  | neg hs ht | pow hs ht =>
    exact ⟨nofun, fun _ _ => getLast_append (by rw [ht]; nofun), h.calls_append⟩
  | sum hop hs ht | product hop hs ht =>
    refine ⟨nofun, fun _ _ => getLast_append ?_, h.calls_append⟩
    rw [ht]
    rcases hop with rfl | rfl <;> nofun
  | group hs ht =>
    refine ⟨nofun, fun _ _ => getLast_append (by rw [ht]; nofun), fun f o before l hf => ?_⟩
    obtain hf | hf := List.mem_cons.mp hf
    · cases hf
    · exact h.calls_append f o before l hf
  | @call f o hs ht =>
    refine ⟨nofun, fun _ _ => getLast_append (by rw [ht]; nofun), fun f' o' before l hf => ?_⟩
    obtain hf | hf := List.mem_cons.mp hf
    · cases hf
      obtain ⟨vs, hvs⟩ := List.getLast?_eq_some_iff.mp (h.name f o hs)
      refine ⟨t.offset, vs, [], ?_⟩
      rw [hvs, ← ht]
      simp only [List.append_assoc, List.cons_append, List.nil_append, List.append_nil]
    · exact h.calls_append f' o' before l hf
  | closeGroup hs ht hf | closeCall hs ht hf =>
    refine ⟨nofun, nofun, fun f o before l hmem => h.calls_append f o before l ?_⟩
    rw [hf]
    exact List.mem_cons_of_mem _ hmem
  | @nextArgument a f o k l fs hs ht hf =>
    refine ⟨nofun, fun _ _ => getLast_append (by rw [ht]; nofun), fun f' o' before l' hmem => ?_⟩
    obtain hmem | hmem := List.mem_cons.mp hmem
    · cases hmem
      exact h.calls_append f o k l (hf ▸ List.mem_cons_self)
    · exact h.calls_append f' o' before l' (hf ▸ List.mem_cons_of_mem _ hmem)

theorem of_feed (h : ({} : State).feed limit us = .ok s) : s.Remembers us :=
  invariant_of_feed initial move h

end Remembers

/-- An error at a token is found in every list that goes on behind it. -/
theorem Blames.foundIn {vs : List Token} (h : s.Blames t e) (hs : s.Remembers us) :
    e.FoundIn (us ++ t :: vs) := by
  have ht : t ∈ us ++ t :: vs := List.mem_append_right _ List.mem_cons_self
  cases e with
  | emptyExpression => exact h.elim
  | unexpectedToken offset expected found =>
    obtain ⟨rfl, rfl⟩ := h
    exact ht
  | unknownIdentifier offset name =>
    obtain ⟨rfl, hname⟩ := h
    obtain ⟨k, o⟩ := t
    cases hname
    exact ht
  | argumentCountMismatch offset found =>
    obtain ⟨f, before, l, fs, hf⟩ := h
    obtain ⟨paren, hus⟩ := hs.calls f offset before l (hf ▸ List.mem_cons_self)
    exact ⟨f, paren, hus.trans (List.prefix_append _ _).isInfix⟩
  | trailingInput offset => exact ⟨t, ht, Eq.symm h⟩
  | tooDeep offset =>
    have h : offset = s.blamed t := h
    unfold blamed at h
    split at h
    · next f o hfocus =>
      exact ⟨_, List.mem_append_left _ (List.mem_of_getLast? (hs.name f o hfocus)), h.symm⟩
    · exact ⟨t, ht, h.symm⟩

end Parser.State

namespace Expr

variable {ts : List Token} {t : Token} {limit : Option Nat} {e : ParseError}

/-- Either there is no token, or all tokens up to one are read, which is refused. -/
theorem ofTokens_eq_error (hts : ∀ u ∈ ts, u.kind ≠ .eof) (ht : t.kind = .eof)
    (h : ofTokens limit (ts ++ [t]) = .error e) :
    (ts = [] ∧ e = .emptyExpression) ∨
      ∃ us u vs s, ts ++ [t] = us ++ u :: vs ∧ ({} : State).feed limit us = .ok s ∧
        s.Refuses limit u e := by
  by_cases hne : ts = []
  · subst hne
    obtain ⟨k, o⟩ := t
    cases ht
    cases h
    exact .inl ⟨rfl, rfl⟩
  · rw [ofTokens_append hts hne ht] at h
    obtain h | ⟨s, hs, h⟩ := Except.bind_eq_error.mp h
    · obtain ⟨us, u, vs, s, rfl, hus, hu⟩ := State.feed_eq_error h
      have hu' : u.kind ≠ .eof := hts u (List.mem_append_right _ List.mem_cons_self)
      refine .inr ⟨us, u, vs ++ [t], s, ?_, hus, ?_⟩
      · rw [List.append_assoc, List.cons_append]
      · rwa [State.Refuses, if_neg hu']
    · refine .inr ⟨ts, t, [], s, rfl, hs, ?_⟩
      rwa [State.Refuses, if_pos ht]

/-- **Errors are found in the list** of tokens that is refused. -/
theorem foundIn_of_ofTokens (hts : ∀ u ∈ ts, u.kind ≠ .eof) (ht : t.kind = .eof)
    (h : ofTokens limit (ts ++ [t]) = .error e) : e.FoundIn (ts ++ [t]) := by
  obtain ⟨rfl, rfl⟩ | ⟨us, u, vs, s, hts, hs, hu⟩ := ofTokens_eq_error hts ht h
  · intro u hu
    rw [List.mem_singleton.mp hu, ht]
  · rw [hts]
    exact hu.blames.foundIn (State.Remembers.of_feed hs)

end Expr

end CurvePlot
