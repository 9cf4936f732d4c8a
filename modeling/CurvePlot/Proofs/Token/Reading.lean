import CurvePlot.Proofs.Token.Lexeme

/-! Texts and the kinds of their tokens.

`Lexed cs ks rest` reads tokens of the kinds `ks` from `cs` up to `rest`, which stays in view so that
no token is cut short. A text that is read to its end is split accordingly (`Lexed.tokenize`). -/

namespace CurvePlot

/-- Tokens of the kinds `ks` are read from `cs`, and `rest` is left. -/
inductive Lexed : List Char → List Token.Kind → List Char → Prop where
  | done {cs} : Lexed cs [] cs
  | blank {c cs ks rest} : Token.isBlank c = true → Lexed cs ks rest → Lexed (c :: cs) ks rest
  | token {cs kind text cs' ks rest} : Lexeme.read cs = .token kind text cs' → Lexed cs' ks rest →
      Lexed cs (kind :: ks) rest

namespace Token

variable {c : Char} {cs text rest : List Char} {kind : Kind} {start : Nat}

theorem isBlank_iff : isBlank c = true ↔ c = ' ' ∨ c = '\n' ∨ c = '\r' ∨ c = '\t' := by
  simp [isBlank, or_assoc]

theorem isBlank_of_read (h : Lexeme.read (c :: cs) = .token kind text rest) :
    isBlank c = false := by
  rw [← Bool.not_eq_true, isBlank_iff]
  rintro (rfl | rfl | rfl | rfl) <;>
    simp [Lexeme.read, Numeral.scan_absent, Kind.ofChar?] at h

theorem stream_nil : stream start [] = [.ok ⟨.eof, start⟩] := by
  rw [stream]
  rfl

theorem stream_blank (h : isBlank c = true) : stream start (c :: cs) = stream (start + 1) cs := by
  have htake : start + ((c :: cs).takeWhile isBlank).length =
      start + 1 + (cs.takeWhile isBlank).length := by
    rw [List.takeWhile_cons_of_pos h, List.length_cons]
    omega
  have hdrop : (c :: cs).dropWhile isBlank = cs.dropWhile isBlank := List.dropWhile_cons_of_pos h
  rw [stream, stream]
  simp only [htake]
  split <;> split <;> simp_all

theorem stream_token (h : Lexeme.read cs = .token kind text rest) :
    stream start cs = .ok ⟨kind, start⟩ :: stream (start + text.length) rest := by
  obtain ⟨c, cs, rfl⟩ : ∃ c cs', cs = c :: cs' := by
    cases cs with
    | nil => cases h
    | cons c cs => exact ⟨c, cs, rfl⟩
  have hc := isBlank_of_read h
  have htake : (c :: cs).takeWhile isBlank = [] := List.takeWhile_cons_of_neg (by simp [hc])
  have hdrop : (c :: cs).dropWhile isBlank = c :: cs := List.dropWhile_cons_of_neg (by simp [hc])
  rw [stream]
  simp only [htake, List.length_nil, Nat.add_zero]
  split <;> simp_all

end Token

namespace Lexed

variable {s : String} {cs cs' rest : List Char} {ks ls : List Token.Kind}

theorem append (h : Lexed cs ks cs') (h' : Lexed cs' ls rest) : Lexed cs (ks ++ ls) rest := by
  induction h with
  | done => exact h'
  | blank hc _ ih => exact .blank hc (ih h')
  | token hr _ ih => exact .token hr (ih h')

theorem blanks {bs : List Char} (hb : ∀ c ∈ bs, Token.isBlank c = true) (h : Lexed cs ks rest) :
    Lexed (bs ++ cs) ks rest := by
  induction bs with
  | nil => exact h
  | cons c bs ih =>
    rw [List.forall_mem_cons] at hb
    exact .blank hb.1 (ih hb.2)

theorem of_blanks {bs : List Char} (hb : ∀ c ∈ bs, Token.isBlank c = true) : Lexed bs [] [] := by
  have h : Lexed (bs ++ []) [] [] := blanks hb .done
  rwa [List.append_nil] at h

theorem stream (h : Lexed cs ks rest) (hrest : rest = []) (start : Nat) :
    ∃ ts o, (Token.stream start cs).mapM id = .ok (ts ++ [⟨.eof, o⟩]) ∧ ts.map (·.kind) = ks := by
  induction h generalizing start with
  | done =>
    subst hrest
    rw [Token.stream_nil]
    exact ⟨[], start, rfl, rfl⟩
  | blank hc _ ih =>
    rw [Token.stream_blank hc]
    exact ih hrest _
  | token hr _ ih =>
    rw [Token.stream_token hr]
    obtain ⟨ts, o, hts, hks⟩ := ih hrest _
    refine ⟨⟨_, start⟩ :: ts, o, ?_, by rw [List.map_cons, hks]⟩
    rw [List.mapM_cons, hts]
    rfl

theorem tokenize (h : Lexed s.toList ks []) :
    ∃ ts o, Token.tokenize s = .ok (ts ++ [⟨.eof, o⟩]) ∧ ts.map (·.kind) = ks :=
  h.stream rfl 0

/-- A text has one list of tokens. -/
theorem unique (h : Lexed cs ks []) (h' : Lexed cs ls []) : ks = ls := by
  obtain ⟨ts, o, hts, rfl⟩ := h.stream rfl 0
  obtain ⟨us, o', hus, rfl⟩ := h'.stream rfl 0
  rw [hts] at hus
  rw [(List.append_inj' (Except.ok.inj hus) rfl).1]

end Lexed

end CurvePlot
