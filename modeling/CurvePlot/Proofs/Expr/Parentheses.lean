import CurvePlot.Proofs.Expr.RoundTrip
import CurvePlot.Proofs.Grammar.Parentheses
import CurvePlot.Proofs.Token.Alphabet

/-! The parentheses of the canonical text.

The tokens of a text are those of the canonical text of its tree and, besides, pairs of parentheses
that it can do without (`exists_drops`). So a text with fewer parentheses than the canonical one has
another tree, or none (`count_lparen_text_le`). -/

namespace CurvePlot.Expr

variable {s : String} {a : Expr}

theorem lexed_text_of_plain (h : a.Plain) : Lexed a.text.toList a.tokens [] := by
  have hlexed := lexed_text a
  rwa [h.normal] at hlexed

/-- A text has the tokens of the canonical text once needless parentheses are dropped. -/
theorem exists_drops (h : ofText s = .ok a) :
    ∃ ts o, Token.tokenize s = .ok (ts ++ [⟨.eof, o⟩]) ∧
      Lexed s.toList (ts.map (·.kind)) [] ∧ Drops (ts.map (·.kind)) a.tokens := by
  obtain ⟨ts, hts, ha⟩ := of_ofText h
  obtain ⟨us, o, rfl, hus⟩ := Token.lexed_of_tokenize hts
  obtain ⟨vs, _, hvs, hwritten⟩ := Token.tokenize_ok hts
  obtain ⟨rfl, -⟩ := List.append_inj' hvs rfl
  have hderives := derives_of_ofTokens (fun u hu => (hwritten u hu).ne_eof) rfl ha
  have hdrops := hderives.drops
  rw [encloseTokens_expression] at hdrops
  exact ⟨us, o, hts, hus, hdrops⟩

/-- No text with the tree `a` has fewer parentheses than the canonical one. -/
theorem count_lparen_text_le (h : ofText s = .ok a) :
    a.text.toList.count '(' ≤ s.toList.count '(' := by
  obtain ⟨ts, o, -, hlexed, hdrops⟩ := exists_drops h
  rw [hlexed.count_lparen, (lexed_text_of_plain (plain_of_ofText h)).count_lparen]
  exact Nat.add_le_add_right hdrops.count_lparen_le _

/-- **Only redundant parentheses are missing in the canonical text.** Its tokens are those of the text
that was read, less pairs of parentheses that only group. So no text with the same tree has fewer
tokens, and the canonical text without one of its parentheses and some later closing one has another
tree, or none. -/
theorem text_parentheses (h : ofText s = .ok a) :
    ∃ ts us, Token.tokenize s = .ok ts ∧ Token.tokenize a.text = .ok us ∧
      Drops (ts.map (·.kind)) (us.map (·.kind)) ∧
      (∀ s', ofText s' = .ok a → ∃ vs, Token.tokenize s' = .ok vs ∧ us.length ≤ vs.length) ∧
      ∀ before inside behind, a.text.toList = before ++ '(' :: (inside ++ ')' :: behind) →
        ofText (String.ofList (before ++ (inside ++ behind))) ≠ .ok a := by
  obtain ⟨us, o, hus, hkinds⟩ := (lexed_text_of_plain (plain_of_ofText h)).tokenize
  have hend : (us ++ [Token.mk .eof o]).map (·.kind) = a.tokens ++ [.eof] := by
    rw [List.map_append, hkinds]
    rfl
  have hdrops {s' : String} (h' : ofText s' = .ok a) :
      ∃ vs, Token.tokenize s' = .ok vs ∧ Drops (vs.map (·.kind)) (a.tokens ++ [.eof]) := by
    obtain ⟨vs, o', hvs, -, hdrops⟩ := exists_drops h'
    refine ⟨_, hvs, ?_⟩
    rw [List.map_append]
    exact hdrops.append_right _
  obtain ⟨ts, hts, hd⟩ := hdrops h
  refine ⟨ts, _, hts, hus, hend ▸ hd, fun s' h' => ?_, fun before inside behind htext h' => ?_⟩
  · obtain ⟨vs, hvs, hd'⟩ := hdrops h'
    have hlength := hd'.length_le
    rw [← hend, List.length_map, List.length_map] at hlength
    exact ⟨vs, hvs, hlength⟩
  · have hcount := count_lparen_text_le h'
    rw [htext, String.toList_ofList] at hcount
    simp at hcount

/-- The first pair of parentheses is needed, as those of the call are. -/
theorem text_parentheses_difference :
    let a : Expr := .binary .mul (.binary .sub .var (.number 1)) (.call .sin .var)
    ofText "((x) - ((1.0))) * sin((x))" = .ok a ∧ a.text.toList = "(x - 1) * sin(x)".toList ∧
      ofText "x - 1 * sin(x)" ≠ .ok a ∧
        ∀ s', ofText s' = .ok a → ∃ vs, Token.tokenize s' = .ok vs ∧ 11 ≤ vs.length := by
  intro a
  have h : ofText "((x) - ((1.0))) * sin((x))" = .ok a := Except.eq_ok_of_toOption (by decide +kernel)
  have htext : a.text.toList = "(x - 1) * sin(x)".toList := by decide +kernel
  obtain ⟨ts, us, -, hus, -, hleast, hneeded⟩ := text_parentheses h
  have hlength : us.length = 11 := by
    have hcount : (Token.tokenize a.text).toOption.map List.length = some 11 := by decide +kernel
    rw [hus] at hcount
    exact Option.some.inj hcount
  refine ⟨h, htext, hneeded [] "x - 1".toList " * sin(x)".toList htext, ?_⟩
  rwa [hlength] at hleast

end CurvePlot.Expr
