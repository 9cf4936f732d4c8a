import CurvePlot.Proofs.Reader.Phrases
import CurvePlot.Proofs.Reader.Prefixes

/-! The reader and the grammar.

What the reader accepts is an expression of the grammar (`derives_of_ofTokens`). In the other
direction it gives the tree of an expression, unless its tokens are nested deeper than the limit
(`Nests.ofTokens_some`). Without a limit it always does, so that an expression has one tree
(`Derives.unique`). -/

namespace CurvePlot.Expr

open CurvePlot.Parser

variable {ts : List Token} {a b : Expr} {t : Token} {k p : Nat}

/-- Tokens are read one after another up to the end of the input. -/
theorem ofTokens_append (hts : ∀ u ∈ ts, u.kind ≠ .eof) (hne : ts ≠ []) (ht : t.kind = .eof)
    (limit : Option Nat) :
    ofTokens limit (ts ++ [t]) = (({} : State).feed limit ts).bind (·.finish t.offset) := by
  cases ts with
  | nil => exact absurd rfl hne
  | cons u us =>
    rw [← State.run_append hts ht]
    exact ofTokens_cons (hts u List.mem_cons_self)

/-- What is read to the end is an expression. -/
theorem derives_of_ofTokens {limit : Option Nat} (hts : ∀ u ∈ ts, u.kind ≠ .eof)
    (ht : t.kind = .eof) (h : ofTokens limit (ts ++ [t]) = .ok a) :
    Derives .expression (ts.map (·.kind)) a := by
  by_cases hne : ts = []
  · subst hne
    obtain ⟨k, o⟩ := t
    cases ht
    cases h
  · rw [ofTokens_append hts hne ht] at h
    obtain ⟨s, hs, ha⟩ := Except.bind_eq_ok.mp h
    exact (State.Holds.of_feed hs).finish ha

namespace Nests

/-- An expression is read to the end, and its depth is the greatest one on the way. -/
theorem feed (h : Nests .expression (ts.map (·.kind)) a k p) :
    ∃ s, ({} : State).feed none ts = .ok s ∧ ({} : State).peak ts = p ∧
      ∀ o, s.finish o = .ok a := by
  obtain ⟨s, hp, hf, b, hb, hexp, -⟩ := h.readable rfl {} false rfl rfl
  have hpeak : State.peak {} ts = 0 + p := hp.peak
  refine ⟨s, hp.feed, hpeak.trans (Nat.zero_add p), fun o => ?_⟩
  have hfs : s.frames = [] := hf
  simp only [State.finish, hb, hfs, hexp]

theorem ne_eof (h : Nests .expression (ts.map (·.kind)) a k p) : ∀ u ∈ ts, u.kind ≠ .eof :=
  fun _ hu he => h.derives.eof_not_mem (List.mem_map.mpr ⟨_, hu, he⟩)

theorem ne_nil (h : Nests .expression (ts.map (·.kind)) a k p) : ts ≠ [] :=
  fun hnil => h.derives.ne_nil (by rw [hnil, List.map_nil])

theorem ofTokens_none (h : Nests .expression (ts.map (·.kind)) a k p) (ht : t.kind = .eof) :
    ofTokens none (ts ++ [t]) = .ok a := by
  obtain ⟨s, hs, -, ha⟩ := h.feed
  rw [ofTokens_append h.ne_eof h.ne_nil ht, hs]
  exact ha t.offset

theorem ofTokens_some {n : Nat} (h : Nests .expression (ts.map (·.kind)) a k p)
    (ht : t.kind = .eof) :
    (p ≤ n ∧ ofTokens (some n) (ts ++ [t]) = .ok a) ∨
      (n < p ∧ ∃ o, ofTokens (some n) (ts ++ [t]) = .error (.tooDeep o)) := by
  obtain ⟨s, hs, rfl, ha⟩ := h.feed
  rw [ofTokens_append h.ne_eof h.ne_nil ht]
  rcases State.feed_some (s := {}) ts (Nat.zero_le n) with ⟨hp, hf⟩ | ⟨hp, o, hf⟩
  · rw [hf, hs]
    exact .inl ⟨hp, ha t.offset⟩
  · rw [hf]
    exact .inr ⟨hp, o, rfl⟩

end Nests

/-- The tokens of an expression have one tree. -/
theorem Derives.unique {ks : List Token.Kind} (ha : Derives .expression ks a)
    (hb : Derives .expression ks b) : a = b := by
  obtain ⟨_, _, ha⟩ := ha.nests
  obtain ⟨_, _, hb⟩ := hb.nests
  have hks : ks = (ks.map (Token.mk · 0)).map (·.kind) := by
    rw [List.map_map]
    exact (List.map_id ks).symm
  rw [hks] at ha hb
  have h := ha.ofTokens_none (t := ⟨.eof, 0⟩) rfl
  rw [hb.ofTokens_none rfl] at h
  cases h
  rfl

/-- **The grammar of the reader.** What it accepts are the expressions of the grammar, with their
trees, but for those that it refuses as too deep. An expression has one tree. -/
theorem parse_grammar (ts : List Token) (hts : ∀ t ∈ ts, t.kind ≠ .eof) (offset : Nat) :
    (∀ a, parse (ts ++ [⟨.eof, offset⟩]) = .ok a → Derives .expression (ts.map (·.kind)) a) ∧
      (∀ a, Derives .expression (ts.map (·.kind)) a →
        parse (ts ++ [⟨.eof, offset⟩]) = .ok a ∨
          ∃ o, parse (ts ++ [⟨.eof, offset⟩]) = .error (.tooDeep o)) ∧
      ∀ a b, Derives .expression (ts.map (·.kind)) a → Derives .expression (ts.map (·.kind)) b →
        a = b := by
  refine ⟨fun a h => derives_of_ofTokens hts rfl h, fun a h => ?_, fun a b => Derives.unique⟩
  obtain ⟨k, p, h⟩ := h.nests
  rcases h.ofTokens_some (t := ⟨.eof, offset⟩) (n := maxDepth) rfl with ⟨-, h⟩ | ⟨-, h⟩
  · exact .inl h
  · exact .inr h

/-- In `-x^-x-x` the first minus sign takes the power as its operand, the second one only `x`. -/
theorem parse_grammar_minus_signs :
    let ts : List Token := [⟨.minus, 0⟩, ⟨.ident "x", 1⟩, ⟨.caret, 2⟩, ⟨.minus, 3⟩, ⟨.ident "x", 4⟩,
      ⟨.minus, 5⟩, ⟨.ident "x", 6⟩]
    (∀ t ∈ ts, t.kind ≠ .eof) ∧ Derives .expression (ts.map (·.kind))
      (.binary .sub (.neg (.binary .pow .var (.neg .var))) .var) := by
  intro ts
  have hts : ∀ t ∈ ts, t.kind ≠ .eof := by decide
  exact ⟨hts, (parse_grammar ts hts 7).1 _ rfl⟩

end CurvePlot.Expr
