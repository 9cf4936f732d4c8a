import CurvePlot.Proofs.Reader.Moves

/-! Kinds, positions and the end of the input.

The reader looks at the kinds of the tokens up to the first end of the input. Their positions are only
carried along, into the errors and past them: with the tokens somewhere else, every state and every error
is somewhere else and otherwise the same (`State.step_relocate`, `State.run_relocate`). What follows the
end is not looked at, and where it is missing, the last token that was taken stands in for it
(`State.run_beforeEnd`). -/

namespace CurvePlot

/-- The same token at the position that `f` gives for its own. -/
def Token.relocate (f : Nat → Nat) (t : Token) : Token := { t with offset := f t.offset }

namespace ParseError

/-- The same error at the position that `f` gives for its own. An empty expression has none. -/
def relocate (f : Nat → Nat) : ParseError → ParseError
  | emptyExpression => emptyExpression
  | unexpectedToken offset expected found => unexpectedToken (f offset) expected found
  | unknownIdentifier offset name => unknownIdentifier (f offset) name
  | argumentCountMismatch offset found => argumentCountMismatch (f offset) found
  | trailingInput offset => trailingInput (f offset)
  | tooDeep offset => tooDeep (f offset)

/-- The same error, with the end of the input at `offset` if it is at the end. -/
def endAt (offset : Nat) : ParseError → ParseError
  | unexpectedToken _ expected .eof => unexpectedToken offset expected .eof
  | e => e

end ParseError

namespace Parser

variable {f : Nat → Nat}

/-! ## Lists of tokens -/

/-- The tokens before the first one for the end of the input. -/
def beforeEnd (ts : List Token) : List Token := ts.takeWhile (·.kind ≠ .eof)

/-- The position of the last token, `before` if there is none. -/
def lastOffset (before : Nat) (ts : List Token) : Nat := (ts.getLast?.map (·.offset)).getD before

section lists

variable {t : Token} {ts : List Token} {before : Nat}

theorem beforeEnd_of_eof (ht : t.kind = .eof) : beforeEnd (t :: ts) = [] :=
  List.takeWhile_cons_of_neg (by simpa using ht)

theorem beforeEnd_cons (ht : t.kind ≠ .eof) : beforeEnd (t :: ts) = t :: beforeEnd ts :=
  List.takeWhile_cons_of_pos (by simpa using ht)

theorem lastOffset_cons : lastOffset before (t :: ts) = lastOffset t.offset ts := by
  rw [lastOffset, lastOffset, List.getLast?_cons]
  cases ts.getLast? <;> rfl

end lists

/-! ## States somewhere else -/

/-- The same focus, with the position of a name that waits for its parenthesis. -/
def Focus.relocate (f : Nat → Nat) : Focus → Focus
  | operand closable => operand closable
  | name g offset => name g (f offset)
  | complete a => complete a

def Opener.relocate (f : Nat → Nat) : Opener → Opener
  | group => group
  | call g offset before => call g (f offset) before

def Frame.relocate (f : Nat → Nat) (frame : Frame) : Frame :=
  { frame with opener := frame.opener.relocate f }

namespace State

variable {s : State} {t : Token} {limit : Option Nat} {last o : Nat} {a : Expr}

/-- The same state behind tokens that are somewhere else, the last of them at `last`. -/
def relocate (f : Nat → Nat) (last : Nat) (s : State) : State where
  focus := s.focus.relocate f
  level := s.level
  frames := s.frames.map (Frame.relocate f)
  last := last

/-- The same outcome of reading a token that is somewhere else. -/
def relocated (f : Nat → Nat) (last : Nat) : Except ParseError State → Except ParseError State
  | .ok s => .ok (s.relocate f last)
  | .error e => .error (e.relocate f)

theorem depth_relocate : (s.relocate f last).depth = s.depth := by
  simp only [depth, relocate, List.foldr_map]
  rfl

theorem expected_relocate : (s.relocate f last).expected = s.expected := by
  obtain ⟨focus, level, frames, _⟩ := s
  cases focus with
  | operand | name => rfl
  | complete a =>
    cases frames with
    | nil => rfl
    | cons frame frames =>
      obtain ⟨opener, outer⟩ := frame
      cases opener <;> rfl

theorem unexpected_relocate :
    (s.relocate f last).unexpected (t.relocate f) = (s.unexpected t).relocate f := by
  have hexpected : (s.relocate f last).expected = s.expected := expected_relocate
  obtain ⟨focus, level, frames, _⟩ := s
  cases focus with
  | operand | name => rfl
  | complete a =>
    cases frames with
    | nil => rfl
    | cons frame frames =>
      exact congrArg (ParseError.unexpectedToken (f t.offset) · t.kind) hexpected

theorem refuse_relocate : .error ((s.relocate f last).unexpected (t.relocate f)) =
    relocated f last (.error (s.unexpected t)) :=
  congrArg Except.error unexpected_relocate

theorem await_relocate {b : Bool} :
    (s.relocate f last).await limit (f o) b = relocated f last (s.await limit o b) := by
  unfold await
  rw [depth_relocate]
  split <;> rfl

theorem close_relocate :
    (s.relocate f last).close (t.relocate f) a = relocated f last (s.close t a) := by
  obtain ⟨focus, level, frames, _⟩ := s
  obtain _ | ⟨⟨_ | ⟨g, offset, before⟩, outer⟩, frames⟩ := frames
  · exact refuse_relocate
  · rfl
  · simp only [close, relocate, List.map_cons, Frame.relocate, Opener.relocate]
    split <;> rfl

theorem nextArgument_relocate :
    (s.relocate f last).nextArgument (t.relocate f) = relocated f last (s.nextArgument t) := by
  obtain ⟨focus, level, frames, _⟩ := s
  obtain _ | ⟨⟨_ | ⟨g, offset, before⟩, outer⟩, frames⟩ := frames
  · exact refuse_relocate
  · exact refuse_relocate
  · rfl

theorem readOperand_relocate {b : Bool} :
    (s.relocate f last).readOperand limit (t.relocate f) b =
      relocated f last (s.readOperand limit t b) := by
  have hkind : (t.relocate f).kind = t.kind := rfl
  unfold readOperand
  rw [hkind]
  split
  · rfl
  · split <;> rfl
  · exact await_relocate (s := s.enter .group)
  · exact await_relocate (s := { s with level := s.level.wait .neg })
  · cases b with
    | false => exact refuse_relocate
    | true =>
      obtain ⟨focus, level, frames, _⟩ := s
      obtain _ | ⟨⟨_ | ⟨g, offset, before⟩, outer⟩, frames⟩ := frames
      · exact refuse_relocate
      · exact refuse_relocate
      · rfl
  · exact refuse_relocate

theorem readOperator_relocate :
    (s.relocate f last).readOperator limit (t.relocate f) a =
      relocated f last (s.readOperator limit t a) := by
  have hkind : (t.relocate f).kind = t.kind := rfl
  unfold readOperator
  rw [hkind]
  split
  · exact await_relocate (s := { s with level := s.level.add a .add })
  · exact await_relocate (s := { s with level := s.level.add a .sub })
  · exact await_relocate (s := { s with level := s.level.mul a .mul })
  · exact await_relocate (s := { s with level := s.level.mul a .div })
  · exact await_relocate (s := { s with level := s.level.wait (.pow a) })
  · exact close_relocate
  · exact nextArgument_relocate
  · exact refuse_relocate

theorem read_relocate :
    (s.relocate f last).read limit (t.relocate f) = relocated f last (s.read limit t) := by
  obtain ⟨focus, level, frames, _⟩ := s
  cases focus with
  | operand b => exact readOperand_relocate
  | name g offset =>
    have hkind : (t.relocate f).kind = t.kind := rfl
    simp only [read, relocate, Focus.relocate]
    rw [hkind]
    split
    · exact await_relocate (s := State.enter ⟨.name g offset, level, frames, _⟩ (.call g offset 0))
    · exact refuse_relocate (s := ⟨.name g offset, level, frames, _⟩)
  | complete a => exact readOperator_relocate

/-- A token that is somewhere else is read as before, and the state behind it is there too. -/
theorem step_relocate :
    (s.relocate f last).step limit (t.relocate f) = relocated f (f t.offset) (s.step limit t) := by
  unfold step
  rw [read_relocate]
  cases s.read limit t <;> rfl

theorem finish_relocate :
    (s.relocate f last).finish (f o) = (s.finish o).mapError (.relocate f) := by
  have hexpected : (s.relocate f last).expected = s.expected := expected_relocate
  obtain ⟨focus, level, frames, _⟩ := s
  cases focus with
  | operand | name => rfl
  | complete a =>
    cases frames with
    | nil => rfl
    | cons frame frames =>
      exact congrArg (fun x => Except.error (ParseError.unexpectedToken (f o) x .eof)) hexpected

/-- Tokens that are somewhere else are read as before. Where the last token was matters only if none
follows. -/
theorem run_relocate (ts : List Token) (hlast : ts = [] → last = f s.last) :
    (s.relocate f last).run limit (ts.map (.relocate f)) = (s.run limit ts).mapError (.relocate f) := by
  induction ts generalizing s last with
  | nil =>
    obtain rfl := hlast rfl
    exact finish_relocate
  | cons t ts ih =>
    by_cases ht : t.kind = .eof
    · have ht' : (t.relocate f).kind = .eof := ht
      rw [List.map_cons, run_of_eof ht, run_of_eof ht']
      exact finish_relocate
    · have ht' : (t.relocate f).kind ≠ .eof := ht
      rw [List.map_cons, run_cons ht, run_cons ht', step_relocate]
      cases hs : s.step limit t with
      | error e => rfl
      | ok s₁ => exact ih fun _ => congrArg f (move_of_step hs).2.symm

/-! ## The end of the input -/

/-- The tokens that are taken, up to the first one that is refused or ends the input. -/
def accepted (limit : Option Nat) (s : State) : List Token → List Token
  | [] => []
  | t :: ts =>
    match s.step limit t with
    | .ok s' => t :: s'.accepted limit ts
    | .error _ => []

theorem accepted_of_eof {ts : List Token} (ht : t.kind = .eof) :
    s.accepted limit (t :: ts) = [] := by
  rw [accepted]
  split
  · next hs => exact absurd ht (move_of_step hs).1.ne_eof
  · rfl

theorem accepted_cons {s' : State} {ts : List Token} (hs : s.step limit t = .ok s') :
    s.accepted limit (t :: ts) = t :: s'.accepted limit ts := by
  rw [accepted, hs]

theorem run_append_eof {t : Token} (ht : t.kind = .eof) (ts us : List Token) :
    s.run limit (ts ++ t :: us) = s.run limit (ts ++ [t]) := by
  induction ts generalizing s with
  | nil => rw [List.nil_append, List.nil_append, run_of_eof ht, run_of_eof ht]
  | cons u ts ih =>
    by_cases hu : u.kind = .eof
    · rw [List.cons_append, List.cons_append, run_of_eof hu, run_of_eof hu]
    · rw [List.cons_append, List.cons_append, run_cons hu, run_cons hu]
      cases s.step limit u with
      | error e => rfl
      | ok s₁ => exact ih

theorem finish_endAt : (s.finish o).mapError (.endAt last) = s.finish last := by
  unfold finish
  split <;> rfl

theorem Blames.endAt {e : ParseError} (h : s.Blames t e) (ht : t.kind ≠ .eof) : e.endAt o = e := by
  unfold ParseError.endAt
  split
  · exact absurd h.2.symm ht
  · rfl

/-- Without its end, the input ends at the last token that is taken. -/
theorem run_beforeEnd (ts : List Token) : s.run limit (beforeEnd ts) =
    (s.run limit ts).mapError (.endAt (lastOffset s.last (s.accepted limit ts))) := by
  induction ts generalizing s with
  | nil => exact finish_endAt.symm
  | cons t ts ih =>
    by_cases ht : t.kind = .eof
    · rw [accepted_of_eof ht, beforeEnd_of_eof ht, run_of_eof ht]
      exact finish_endAt.symm
    · rw [beforeEnd_cons ht, run_cons ht, run_cons ht]
      cases hs : s.step limit t with
      | error e =>
        exact congrArg Except.error ((blames_of_step hs).endAt ht).symm
      | ok s₁ =>
        rw [accepted_cons hs, lastOffset_cons, ← (move_of_step hs).2]
        exact ih

/-- An error at the end is reported there, behind all tokens. -/
theorem run_error_eof {ts : List Token} {x : Expected}
    (h : s.run limit ts = .error (.unexpectedToken o x .eof)) :
    s.accepted limit ts = beforeEnd ts ∧ ∀ t ∈ ts.find? (·.kind = .eof), o = t.offset := by
  induction ts generalizing s with
  | nil => exact ⟨rfl, nofun⟩
  | cons t ts ih =>
    by_cases ht : t.kind = .eof
    · rw [run_of_eof ht] at h
      rw [accepted_of_eof ht, beforeEnd_of_eof ht, List.find?_cons_of_pos (by simpa using ht)]
      refine ⟨rfl, ?_⟩
      rintro t ⟨⟩
      exact (blames_of_finish ht h).1
    · rw [run_cons ht] at h
      rw [beforeEnd_cons ht, List.find?_cons_of_neg (by simpa using ht)]
      obtain hs | ⟨s₁, hs, h⟩ := Except.bind_eq_error.mp h
      · exact absurd (blames_of_step hs).2.symm ht
      · obtain ⟨haccepted, hend⟩ := ih h
        rw [accepted_cons hs, haccepted]
        exact ⟨rfl, hend⟩

end State

/-- Tokens of these kinds, each at its place in the list. -/
def numbered (ks : List Token.Kind) : List Token := ks.mapIdx fun i k => ⟨k, i⟩

theorem map_numbered (ts : List Token) :
    (numbered (ts.map (·.kind))).map (.relocate fun i => (ts[i]?.map (·.offset)).getD 0) = ts := by
  refine List.ext_getElem? fun i => ?_
  rw [numbered, List.getElem?_map, List.getElem?_mapIdx, List.getElem?_map]
  cases h : ts[i]? with
  | none => rfl
  | some t => simp [Token.relocate, h]

end Parser

namespace Expr

open CurvePlot.Parser

variable {limit : Option Nat}

theorem ofTokens_append_eof {t : Token} (ht : t.kind = .eof) (ts us : List Token) :
    ofTokens limit (ts ++ t :: us) = ofTokens limit (ts ++ [t]) := by
  cases ts with
  | nil => rw [List.nil_append, List.nil_append, ofTokens_of_eof ht, ofTokens_of_eof ht]
  | cons u ts =>
    rw [List.cons_append, List.cons_append]
    by_cases hu : u.kind = .eof
    · rw [ofTokens_of_eof hu, ofTokens_of_eof hu]
    · rw [ofTokens_cons hu, ofTokens_cons hu]
      exact State.run_append_eof ht (u :: ts) us

theorem ofTokens_relocate (f : Nat → Nat) (ts : List Token) :
    ofTokens limit (ts.map (.relocate f)) = (ofTokens limit ts).mapError (.relocate f) := by
  cases ts with
  | nil => rfl
  | cons t ts =>
    by_cases ht : t.kind = .eof
    · have ht' : (t.relocate f).kind = .eof := ht
      rw [List.map_cons, ofTokens_of_eof ht, ofTokens_of_eof ht']
      rfl
    · have ht' : (t.relocate f).kind ≠ .eof := ht
      rw [List.map_cons, ofTokens_cons ht, ofTokens_cons ht', ← List.map_cons]
      have hrun : (State.relocate f 0 {}).run limit _ = _ := State.run_relocate (t :: ts) nofun
      exact hrun

theorem ofTokens_beforeEnd (ts : List Token) : ofTokens limit (beforeEnd ts) =
    (ofTokens limit ts).mapError (.endAt (lastOffset 0 (({} : State).accepted limit ts))) := by
  cases ts with
  | nil => rfl
  | cons t ts =>
    by_cases ht : t.kind = .eof
    · rw [beforeEnd_of_eof ht, ofTokens_of_eof ht]
      rfl
    · have hrun : ({} : State).run limit (beforeEnd (t :: ts)) = _ := State.run_beforeEnd (t :: ts)
      rw [beforeEnd_cons ht] at hrun ⊢
      rw [ofTokens_cons ht, ofTokens_cons ht]
      exact hrun

theorem ofTokens_error_eof {ts : List Token} {o : Nat} {x : Expected}
    (h : ofTokens limit ts = .error (.unexpectedToken o x .eof)) :
    ({} : State).accepted limit ts = beforeEnd ts ∧
      ∀ t ∈ ts.find? (·.kind = .eof), o = t.offset := by
  cases ts with
  | nil => cases h
  | cons t ts =>
    by_cases ht : t.kind = .eof
    · rw [ofTokens_of_eof ht] at h
      cases h
    · rw [ofTokens_cons ht] at h
      exact State.run_error_eof h

/-- The tokens that the reader takes. -/
def accepted (ts : List Token) : List Token := ({} : State).accepted (some maxDepth) ts

/-- **Only kinds matter, up to the first end of the input.** What follows that end does not change what
is read. Tokens that are somewhere else have the same tree, or the same error there, so that the tree, or
which token is at fault, is told by the kinds. Without the end, an error there is at the last token that
was taken, and all others and the tree are the same. -/
theorem parse_kinds (ts : List Token) :
    (∀ offset us, parse (ts ++ ⟨.eof, offset⟩ :: us) = parse (ts ++ [⟨.eof, offset⟩])) ∧
      (∀ f, parse (ts.map (.relocate f)) = (parse ts).mapError (.relocate f)) ∧
      parse ts = (parse (numbered (ts.map (·.kind)))).mapError
        (.relocate fun i => (ts[i]?.map (·.offset)).getD 0) ∧
      parse (beforeEnd ts) = (parse ts).mapError (.endAt (lastOffset 0 (accepted ts))) ∧
      ∀ offset expected, parse ts = .error (.unexpectedToken offset expected .eof) →
        accepted ts = beforeEnd ts ∧ ∀ t ∈ ts.find? (·.kind = .eof), offset = t.offset := by
  refine ⟨fun offset us => ofTokens_append_eof rfl ts us, fun f => ofTokens_relocate f ts, ?_,
    ofTokens_beforeEnd ts, fun offset expected h => ofTokens_error_eof h⟩
  have hplaced : parse ((numbered (ts.map (·.kind))).map (.relocate _)) = _ :=
    ofTokens_relocate (fun i => (ts[i]?.map (·.offset)).getD 0) _
  rwa [map_numbered] at hplaced

/-- In `sin(x` the end of the input stands where `,` or `)` has to. -/
theorem parse_kinds_call :
    let ts : List Token := [⟨.ident "sin", 0⟩, ⟨.lparen, 3⟩, ⟨.ident "x", 4⟩, ⟨.eof, 7⟩, ⟨.rparen, 8⟩]
    parse ts = .error (.unexpectedToken 7 .commaOrCloseParen .eof) ∧ accepted ts = beforeEnd ts ∧
      parse (beforeEnd ts) = .error (.unexpectedToken 4 .commaOrCloseParen .eof) ∧
        parse (ts.map (.relocate (· + 1))) = .error (.unexpectedToken 8 .commaOrCloseParen .eof) := by
  intro ts
  have h : parse ts = .error (.unexpectedToken 7 .commaOrCloseParen .eof) := rfl
  obtain ⟨-, hmoved, -, hcut, hend⟩ := parse_kinds ts
  rw [h] at hmoved hcut
  obtain ⟨haccepted, -⟩ := hend _ _ h
  rw [haccepted] at hcut
  exact ⟨h, haccepted, hcut, hmoved _⟩

end Expr

end CurvePlot
