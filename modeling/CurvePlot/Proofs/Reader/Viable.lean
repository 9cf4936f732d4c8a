import CurvePlot.Proofs.Reader.Faults
import CurvePlot.Proofs.Reader.Shapes

/-! Syntax errors are at the first token that cannot be right.

What the reader has read without an error can become an expression. Behind a waiting operator any
operand makes an expression of the tokens since the innermost open parenthesis or the last comma, and
such an expression and a closing parenthesis are an operand again. `State.Opens` says so of the open
constructs and is kept by every use of a token (`Opens.move`). On the other hand every shape is read
(`Shape.takable`), and so a token that is refused begins nothing that an expression could go on with
(`Refuses.not_viable`). -/

namespace CurvePlot

open CurvePlot.Expr (Shape Viable)

/-- The error is about a token that cannot stand where it does. -/
def ParseError.IsSyntactic : ParseError → Prop
  | unexpectedToken .. | unknownIdentifier .. | trailingInput _ => True
  | emptyExpression | argumentCountMismatch .. | tooDeep _ => False

namespace Parser

/-! ## Open constructs -/

/-- Behind the tokens, every operand makes an expression. -/
def Awaits (ts : List Token.Kind) : Prop := ∀ us, Shape .unary us → Shape .expression (ts ++ us)

/-- The shape of the tokens since the innermost open parenthesis or the last comma. -/
def Focus.Opens : Focus → List Token.Kind → Prop
  | .operand _, ts => Awaits ts
  | .name f _, ts => ∃ us, ts = us ++ [.ident f.name] ∧ Awaits us
  | .complete _, ts => Shape .expression ts

/-- The shape of the tokens up to the innermost open parenthesis and, in a call, up to the last
comma. -/
def Frame.Opens : List Frame → List Token.Kind → Prop
  | [], ts => ts = []
  | ⟨.group, _⟩ :: fs, ts => ∃ us vs, ts = us ++ (vs ++ [.lparen]) ∧ Opens fs us ∧ Awaits vs
  | ⟨.call f _ _, _⟩ :: fs, ts =>
    ∃ us vs, ∃ args : List (List Token.Kind),
      ts = us ++ (vs ++ .ident f.name :: .lparen :: args.flatMap (· ++ [.comma])) ∧
        Opens fs us ∧ Awaits vs ∧ ∀ as ∈ args, Shape .expression as

/-- The tokens that a state has read, as far as their shape goes. -/
def State.Opens (s : State) (ts : List Token.Kind) : Prop :=
  ∃ us vs, ts = us ++ vs ∧ Frame.Opens s.frames us ∧ s.focus.Opens vs

namespace Awaits

variable {ts us : List Token.Kind} {f : Func} {args : List (List Token.Kind)}

theorem nil : Awaits [] := fun _ h => .term (.unary h)

theorem primary (h : Awaits ts) (hus : Shape .primary us) : Shape .expression (ts ++ us) :=
  h us (.power (.primary hus))

theorem neg (h : Awaits ts) : Awaits (ts ++ [.minus]) := by
  intro us hus
  rw [List.append_assoc]
  exact h _ (.neg hus)

theorem operator (h : Shape .expression ts) (op : BinOp) : Awaits (ts ++ [op.kind]) := by
  intro us hus
  rw [List.append_assoc]
  exact h.extend op hus

theorem group (h : Awaits ts) (hus : Shape .expression us) :
    Shape .expression (ts ++ [.lparen] ++ us ++ [.rparen]) := by
  have hexp := h.primary (.group hus)
  simpa only [List.append_assoc, List.cons_append, List.nil_append] using hexp

/-- An argument ends its call, if the call may have any number of them. -/
theorem call (h : Awaits ts) (hargs : ∀ as ∈ args, Shape .expression as)
    (hus : Shape .expression us) :
    Shape .expression
      (ts ++ .ident f.name :: .lparen :: args.flatMap (· ++ [.comma]) ++ us ++ [.rparen]) := by
  have hall : ∀ as ∈ args ++ [us], Shape .expression as := by
    rw [List.forall_mem_append, List.forall_mem_singleton]
    exact ⟨hargs, hus⟩
  have hexp := h.primary (.call (f := f) hall)
  rw [Expr.arguments_concat] at hexp
  simpa only [List.append_assoc, List.cons_append, List.nil_append] using hexp

end Awaits

namespace Frame.Opens

variable {fs : List Frame} {us vs : List Token.Kind}

theorem nil : Opens [] [] := by rw [Opens]

/-- What is open can be closed behind an expression. -/
theorem closes (h : Opens fs us) (hvs : Shape .expression vs) :
    ∃ ws, Shape .expression (us ++ vs ++ ws) := by
  induction fs generalizing us vs with
  | nil =>
    rw [Opens] at h
    rw [h]
    exact ⟨[], by rwa [List.append_nil]⟩
  | cons frame fs ih =>
    obtain ⟨_ | ⟨f, o, k⟩, l⟩ := frame
    · obtain ⟨us, ts, rfl, hfs, hts⟩ := h
      obtain ⟨ws, hws⟩ := ih hfs (hts.group hvs)
      refine ⟨.rparen :: ws, ?_⟩
      simpa only [List.append_assoc, List.cons_append, List.nil_append] using hws
    · obtain ⟨us, ts, args, rfl, hfs, hts, hargs⟩ := h
      obtain ⟨ws, hws⟩ := ih hfs (hts.call (f := f) hargs hvs)
      refine ⟨.rparen :: ws, ?_⟩
      simpa only [List.append_assoc, List.cons_append, List.nil_append] using hws

end Frame.Opens

namespace State

variable {s s' : State} {t : Token} {ts : List Token.Kind} {us : List Token} {limit : Option Nat}
  {e : ParseError}

namespace Opens

theorem initial : ({} : State).Opens [] := ⟨[], [], rfl, Frame.Opens.nil, .nil⟩

theorem focus {focus : Focus} {level : Level} {last : Nat} {us vs : List Token.Kind}
    {frames : List Frame} (hframes : Frame.Opens frames us) (hfocus : focus.Opens vs) :
    State.Opens ⟨focus, level, frames, last⟩ (us ++ vs) :=
  ⟨us, vs, rfl, hframes, hfocus⟩

theorem complete {a : Expr} {level : Level} {last : Nat} {us vs : List Token.Kind}
    {frames : List Frame} (hframes : Frame.Opens frames us) (hvs : Shape .expression vs) :
    State.Opens ⟨.complete a, level, frames, last⟩ (us ++ vs) :=
  focus hframes hvs

/-- Behind an opening parenthesis or a comma nothing has been read. -/
theorem enter {closable : Bool} {level : Level} {last : Nat} {frames : List Frame}
    (hframes : Frame.Opens frames ts) : State.Opens ⟨.operand closable, level, frames, last⟩ ts :=
  ⟨ts, [], (List.append_nil ts).symm, hframes, .nil⟩

theorem move {focus : Focus} {frames : List Frame} {level : Level} {last : Nat} (h : s.Opens ts)
    (hm : s.Move t focus frames level) : State.Opens ⟨focus, level, frames, last⟩ (ts ++ [t.kind]) := by
  obtain ⟨us, vs, rfl, hframes, hfocus⟩ := h
  rw [List.append_assoc]
  cases hm with
  | number hs ht =>
    rw [hs] at hfocus
    rw [ht]
    exact .complete hframes (Awaits.primary hfocus .number)
  | operand hs ht hn =>
    rw [hs] at hfocus
    rw [ht]
    exact .complete hframes (Awaits.primary hfocus (Name.derives_of_resolve hn).shape)
  | function hs ht =>
    rw [hs] at hfocus
    rw [ht]
    exact .focus hframes ⟨vs, rfl, hfocus⟩
  | neg hs ht =>
    rw [hs] at hfocus
    rw [ht]
    exact .focus hframes (Awaits.neg hfocus)
  | group hs ht =>
    rw [hs] at hfocus
    rw [ht]
    exact .enter ⟨us, vs, rfl, hframes, hfocus⟩
  | call hs ht =>
    rw [hs] at hfocus
    obtain ⟨vs, rfl, hvs⟩ := hfocus
    rw [ht, List.append_assoc]
    exact .enter ⟨us, vs, [], rfl, hframes, hvs, List.forall_mem_nil _⟩
  | sum hop hs ht | product hop hs ht =>
    rw [hs] at hfocus
    rw [ht]
    exact .focus hframes (Awaits.operator hfocus _)
  | pow hs ht =>
    rw [hs] at hfocus
    rw [ht]
    exact .focus hframes (Awaits.operator hfocus .pow)
  | closeGroup hs ht hf =>
    rw [hs] at hfocus
    rw [hf] at hframes
    obtain ⟨us, xs, rfl, hfs, hxs⟩ := hframes
    rw [ht]
    have h := hxs.group hfocus
    simp only [List.append_assoc] at h ⊢
    exact .complete hfs h
  | @closeCall a f o l fs hs ht hf =>
    rw [hs] at hfocus
    rw [hf] at hframes
    obtain ⟨us, xs, args, rfl, hfs, hxs, hargs⟩ := hframes
    rw [ht]
    have h := hxs.call (f := f) hargs hfocus
    simp only [List.append_assoc, List.cons_append] at h ⊢
    exact .complete hfs h
  | nextArgument hs ht hf =>
    rw [hs] at hfocus
    rw [hf] at hframes
    obtain ⟨us, xs, args, rfl, hfs, hxs, hargs⟩ := hframes
    have hall : ∀ as ∈ args ++ [vs], Shape .expression as := by
      rw [List.forall_mem_append, List.forall_mem_singleton]
      exact ⟨hargs, hfocus⟩
    refine .enter ⟨us, xs, args ++ [vs], ?_, hfs, hxs, hall⟩
    simp only [ht, List.flatMap_append, List.flatMap_singleton, List.append_assoc, List.cons_append]

theorem of_feed (h : ({} : State).feed limit us = .ok s) : s.Opens (us.map (·.kind)) := by
  refine invariant_of_feed (P := fun s us => s.Opens (us.map (·.kind))) initial (fun hs hm => ?_) h
  rw [List.map_append]
  exact hs.move hm

/-- A missing operand can be `x`, and what is open then can be closed. -/
theorem shape (h : s.Opens ts) : ∃ ws, Shape .expression (ts ++ ws) := by
  obtain ⟨us, vs, rfl, hframes, hfocus⟩ := h
  obtain ⟨xs, hxs⟩ : ∃ xs, Shape .expression (vs ++ xs) := by
    cases hs : s.focus with
    | operand closable =>
      rw [hs] at hfocus
      exact ⟨_, Awaits.primary hfocus .var⟩
    | name f o =>
      rw [hs] at hfocus
      obtain ⟨vs, rfl, hvs⟩ := hfocus
      have hx : Shape .expression [.ident Expr.variableName] := Awaits.nil.primary .var
      have hcall := hvs.call (f := f) (List.forall_mem_nil _) hx
      refine ⟨.lparen :: .ident Expr.variableName :: [.rparen], ?_⟩
      simpa only [List.flatMap_nil, List.append_assoc, List.cons_append, List.nil_append] using hcall
    | complete a =>
      rw [hs] at hfocus
      exact ⟨[], by rwa [List.append_nil]⟩
  obtain ⟨ws, hws⟩ := hframes.closes hxs
  exact ⟨xs ++ ws, by simpa only [List.append_assoc] using hws⟩

/-- What has been read without an error can become an expression. -/
theorem viable (h : s.Opens ts) : Viable ts := by
  obtain ⟨ws, hws⟩ := h.shape
  refine ⟨_, hws, ?_⟩
  rw [List.append_assoc]
  exact List.prefix_append _ _

end Opens

/-! ## Refused tokens -/

theorem Blames.offset_eq (h : s.Blames t e) (he : e.IsSyntactic) : e.offset = t.offset := by
  cases e with
  | unexpectedToken | unknownIdentifier => exact h.1
  | trailingInput => exact h
  | emptyExpression | argumentCountMismatch | tooDeep => exact he.elim

/-- The limit has no part in syntax errors. -/
theorem Refuses.unlimited (h : s.Refuses limit t e) (he : e.IsSyntactic)
    (hs : ({} : State).feed limit us = .ok s) :
    ({} : State).feed none us = .ok s ∧ s.Refuses none t e := by
  cases limit with
  | none => exact ⟨hs, h⟩
  | some n =>
    obtain ⟨hs, hdepth⟩ := feed_none_of_some (Nat.zero_le n) hs
    refine ⟨hs, ?_⟩
    unfold Refuses at h ⊢
    split at h
    · next ht => rwa [if_pos ht]
    · next ht =>
      rw [if_neg ht]
      obtain h | rfl := step_none_of_some hdepth h
      · exact h
      · exact he.elim

/-- No expression goes on with a token that is refused. -/
theorem Refuses.not_viable (h : s.Refuses none t e) (he : e.IsSyntactic)
    (hs : ({} : State).feed none us = .ok s) : ¬Viable ((us ++ [t]).map (·.kind)) := by
  rintro ⟨ks, hks, hprefix⟩
  rw [List.map_append, List.map_singleton] at hprefix
  unfold Refuses at h
  by_cases ht : t.kind = .eof
  · -- The tokens before the end are all of the expression, and it is complete.
    rw [if_pos ht] at h
    have hus : us.map (·.kind) = ks := by
      obtain heq | hlt := List.prefix_concat_iff.mp hprefix
      · exact (List.append_inj' heq rfl).1
      · rw [ht] at hlt
        exact absurd (hlt.subset (List.mem_append_right _ (List.mem_singleton_self _)))
          hks.eof_not_mem
    obtain ⟨s', a, hs', ha, hf⟩ | ⟨offset, found, hs'⟩ := hks.takable us {} false hus rfl
    · cases hs.symm.trans hs'
      have hf : s.frames = [] := hf
      simp only [finish, ha, hf] at h
      cases h
    · cases hs.symm.trans hs'
  · -- All of the expression is taken, and so the token is.
    rw [if_neg ht] at h
    obtain heq | ⟨vs, hvs⟩ := List.prefix_concat_iff.mp hprefix
    · exact absurd (List.append_inj' heq rfl).2 (by simpa using ht)
    · have hkinds : (us ++ t :: vs.map (Token.mk · 0)).map (·.kind) = ks := by
        rw [← hvs, List.map_append, List.map_cons, List.map_map, List.append_assoc]
        exact congrArg (_ ++ t.kind :: ·) (List.map_id vs)
      have hfeed : ({} : State).feed none (us ++ t :: vs.map (Token.mk · 0)) = .error e := by
        rw [feed_append hs]
        simp only [feed, h]
        rfl
      obtain ⟨s', a, hs', -, -⟩ | ⟨offset, found, hs'⟩ := hks.takable _ {} false hkinds rfl
      · cases hfeed.symm.trans hs'
      · cases hfeed.symm.trans hs'
        exact he.elim

end State

end Parser

namespace Expr

/-- **Syntax errors are at the first token that cannot be right.** The tokens before it can become an
expression with calls of any number of arguments, and with the token they cannot, whatever follows. -/
theorem parse_error_first (ts : List Token) (hts : ∀ t ∈ ts, t.kind ≠ .eof) (offset : Nat)
    (e : ParseError) (h : parse (ts ++ [⟨.eof, offset⟩]) = .error e) (he : e.IsSyntactic) :
    ∃ us t vs, ts ++ [⟨.eof, offset⟩] = us ++ t :: vs ∧ e.offset = t.offset ∧
      Viable (us.map (·.kind)) ∧ ¬Viable ((us ++ [t]).map (·.kind)) := by
  obtain ⟨-, rfl⟩ | ⟨us, t, vs, s, hsplit, hs, ht⟩ := ofTokens_eq_error hts rfl h
  · exact he.elim
  · refine ⟨us, t, vs, hsplit, ht.blames.offset_eq he, ?_, ?_⟩
    · exact (Parser.State.Opens.of_feed hs).viable
    · obtain ⟨hs, ht⟩ := ht.unlimited he hs
      exact ht.not_viable he hs

/-- In `sin(x,x x` the second argument is not yet wrong, but what follows it is. -/
theorem parse_error_first_argument :
    let ts : List Token := [⟨.ident "sin", 0⟩, ⟨.lparen, 3⟩, ⟨.ident "x", 4⟩, ⟨.comma, 5⟩,
      ⟨.ident "x", 6⟩, ⟨.ident "x", 8⟩]
    let e : ParseError := .unexpectedToken 8 .commaOrCloseParen (.ident "x")
    (∀ t ∈ ts, t.kind ≠ .eof) ∧ parse (ts ++ [⟨.eof, 9⟩]) = .error e ∧ e.IsSyntactic ∧
      ∃ us t vs, ts ++ [⟨.eof, 9⟩] = us ++ t :: vs ∧ t.offset = 8 ∧
        Viable (us.map (·.kind)) ∧ ¬Viable ((us ++ [t]).map (·.kind)) := by
  intro ts e
  have hts : ∀ t ∈ ts, t.kind ≠ .eof := by decide
  have h : parse (ts ++ [⟨.eof, 9⟩]) = .error e := rfl
  obtain ⟨us, t, vs, hsplit, ho, hv⟩ := parse_error_first ts hts 9 e h trivial
  exact ⟨hts, h, trivial, us, t, vs, hsplit, ho.symm, hv⟩

end Expr

end CurvePlot
