import CurvePlot.Proofs.Expr.Lexing
import CurvePlot.Proofs.Reader.Grammar
import CurvePlot.Proofs.Token.Partition

/-! Reading the canonical text back.

The canonical text is read as the tree that is written, unless its tokens are nested too deeply
(`ofText_text`). A tree that was read is the one that is written for it (`Plain.normal`), and two of
them have the same text only if they are equal (`Plain.text_injective`). -/

namespace CurvePlot.Expr

variable {a b : Expr} {s : String}

theorem ofText_of_tokenize {ts : List Token} (h : Token.tokenize s = .ok ts) :
    ofText s = (parse ts).mapError .parse := by
  rw [ofText, h]
  rfl

theorem of_ofText (h : ofText s = .ok a) :
    ∃ ts, Token.tokenize s = .ok ts ∧ parse ts = .ok a := by
  obtain ⟨ts, hts, ha⟩ := Except.bind_eq_ok.mp h
  exact ⟨ts, Except.mapError_eq_ok.mp hts, Except.mapError_eq_ok.mp ha⟩

/-- A text that is no expression has no tokens, or its tokens are none. -/
theorem error_of_ofText {e : ReadError} (h : ofText s = .error e) :
    (∃ err, Token.tokenize s = .error err ∧ e = .lex err) ∨
      ∃ ts err, Token.tokenize s = .ok ts ∧ parse ts = .error err ∧ e = .parse err := by
  obtain h | ⟨ts, hts, h⟩ := Except.bind_eq_error.mp h
  · obtain ⟨err, herr, rfl⟩ := Except.mapError_eq_error.mp h
    exact .inl ⟨err, herr, rfl⟩
  · obtain ⟨err, herr, rfl⟩ := Except.mapError_eq_error.mp h
    exact .inr ⟨ts, err, Except.mapError_eq_ok.mp hts, herr, rfl⟩

/-- A text whose tokens are an expression is read as its tree, unless it is nested too deeply. -/
theorem ofText_of_nests {ks : List Token.Kind} {k p : Nat} (hs : Lexed s.toList ks [])
    (h : Nests .expression ks a k p) :
    (p ≤ maxDepth ∧ ofText s = .ok a) ∨
      (maxDepth < p ∧ ∃ o, ofText s = .error (.parse (.tooDeep o))) := by
  obtain ⟨ts, o, hts, rfl⟩ := hs.tokenize
  rw [ofText_of_tokenize hts]
  rcases h.ofTokens_some (t := ⟨.eof, o⟩) (n := maxDepth) rfl with ⟨hp, hr⟩ | ⟨hp, o', hr⟩
  · exact .inl ⟨hp, congrArg (Except.mapError ReadError.parse) hr⟩
  · exact .inr ⟨hp, o', congrArg (Except.mapError ReadError.parse) hr⟩

theorem lexed_text (a : Expr) : Lexed a.text.toList a.normal.tokens [] := by
  have h := lexed_chars a .nil
  rwa [List.append_nil, ← String.toList_ofList (l := a.chars)] at h

theorem ofText_text (a : Expr) :
    (a.normal.nesting ≤ maxDepth ∧ ofText a.text = .ok a.normal) ∨
      (maxDepth < a.normal.nesting ∧ ∃ o, ofText a.text = .error (.parse (.tooDeep o))) :=
  ofText_of_nests (lexed_text a) (nests_tokens a.normal).toExpression

theorem plain_of_ofText (h : ofText s = .ok a) : a.Plain := by
  obtain ⟨ts, hts, ha⟩ := of_ofText h
  obtain ⟨us, o, rfl, hus⟩ := Token.tokenize_ok hts
  have hd := derives_of_ofTokens (fun u hu => (hus u hu).ne_eof) rfl ha
  refine hd.plain fun k hk => ?_
  obtain ⟨u, hu, rfl⟩ := List.mem_map.mp hk
  exact hus u hu

theorem Plain.text_injective (ha : a.Plain) (hb : b.Plain) (h : a.text = b.text) : a = b := by
  have hla := lexed_text a
  have hlb := lexed_text b
  rw [ha.normal] at hla
  rw [hb.normal, ← h] at hlb
  have hda := (nests_tokens a).toExpression.derives
  have hdb := (nests_tokens b).toExpression.derives
  rw [hlb.unique hla] at hdb
  exact hda.unique hdb

/-- **Reading back what was written.** The canonical text of a tree is read as its normal tree or
refused as too deep. A tree that was read is normal, so that it is read again. -/
theorem ofText_text_normal (a : Expr) :
    (ofText a.text = .ok a.normal ∨ ∃ o, ofText a.text = .error (.parse (.tooDeep o))) ∧
      ∀ s, ofText s = .ok a →
        a.normal = a ∧
          (ofText a.text = .ok a ∨ ∃ o, ofText a.text = .error (.parse (.tooDeep o))) := by
  have h : ofText a.text = .ok a.normal ∨ ∃ o, ofText a.text = .error (.parse (.tooDeep o)) :=
    (ofText_text a).imp And.right And.right
  refine ⟨h, fun s hs => ?_⟩
  have hn := (plain_of_ofText hs).normal
  rw [hn] at h
  exact ⟨hn, h⟩

theorem ofText_text_normal_power :
    let a : Expr := .binary .pow (.neg .var) (.neg (.binary .sub .var (.number 1)))
    ofText "(-(x)) ^ -(x-1.0)" = .ok a ∧ a.normal = a ∧
      (ofText a.text = .ok a ∨ ∃ o, ofText a.text = .error (.parse (.tooDeep o))) := by
  intro a
  have h : ofText "(-(x)) ^ -(x-1.0)" = .ok a := Except.eq_ok_of_toOption (by decide +kernel)
  exact ⟨h, (ofText_text_normal a).2 _ h⟩

end CurvePlot.Expr
