import CurvePlot.Proofs.Token.Partition

/-! What stands at the places of tokens and errors in a text.

A token has its place inside the text, with its lexeme there (`Partition.exists_spells`) and the next
token behind it (`Partition.follows`). A number that cannot be read begins like any other
(`begins_of_noLexeme`). -/

namespace CurvePlot

namespace Lexeme

variable {text : List Char} {name : String}

theorem Spells.of_ident (h : Spells text (.ident name)) :
    text = name.toList ∧ ∀ c ∈ name.toList, c.isAlphanum = true := by
  cases h with
  | name hc hcs =>
    rw [String.toList_ofList, List.forall_mem_cons]
    exact ⟨rfl, by rw [Char.isAlphanum, hc, Bool.true_or], hcs⟩
  | symbol h =>
    unfold Token.Kind.ofChar? at h
    split at h <;> cases h

theorem Spells.of_lparen (h : Spells text .lparen) : text = ['('] := by
  cases h with
  | symbol h =>
    unfold Token.Kind.ofChar? at h
    split at h <;> cases h
    rfl

end Lexeme

namespace Numeral

variable {cs w m f p rest : List Char} {d : Decimal} {n : Int}

/-- The text begins with a digit or a decimal point. -/
def Begins (cs : List Char) : Prop := ∃ c ∈ cs.head?, c.isDigit = true ∨ c = '.'

theorem Begins.of_isDigit (hw : w ≠ []) (h : ∀ c ∈ w, c.isDigit) : Begins (w ++ rest) := by
  obtain ⟨c, w, rfl⟩ := List.exists_cons_of_ne_nil hw
  exact ⟨c, rfl, .inl (h c List.mem_cons_self)⟩

theorem Mantissa.begins (h : Mantissa m w f) : Begins (m ++ rest) := by
  cases h with
  | whole hw => exact .of_isDigit hw.1 hw.2
  | point hw hf =>
    by_cases hnil : w = []
    · subst hnil
      exact ⟨'.', rfl, .inr rfl⟩
    · rw [List.append_assoc]
      exact .of_isDigit hnil hw

theorem Unfinished.begins (h : Unfinished p) : Begins (p ++ rest) := by
  cases h with
  | point hw =>
    rw [List.append_assoc]
    exact .of_isDigit hw.1 hw.2
  | power hm =>
    rw [List.append_assoc]
    exact hm.begins

theorem Literal.begins (h : Literal m d) : Begins (m ++ rest) := by
  obtain ⟨hm, hes⟩ := h
  rw [List.append_assoc]
  exact hm.begins

end Numeral

namespace Token

open Lexeme

variable {cs : List Char} {t t' : Token} {ts : List Token} {offset : Nat}

theorem begins_of_noLexeme (h : NoLexeme cs (.malformedNumber offset)) : Numeral.Begins cs := by
  obtain ⟨p, hp, ⟨rest, rfl⟩, -⟩ | ⟨text, d, ht, ⟨rest, rfl⟩, -⟩ := h
  · exact hp.begins
  · exact ht.begins

theorem Stuck.offset_lt {e : LexError} (h : Stuck cs e) : e.offset < cs.length := by
  have hne : cs.drop e.offset ≠ [] := by
    intro hnil
    have hno := h.noLexeme
    rw [hnil] at hno
    cases e with
    | unexpectedCharacter offset ch =>
      obtain ⟨⟨rest, ⟨⟩, -⟩, -⟩ := hno
    | malformedNumber offset =>
      obtain ⟨c, ⟨⟩, -⟩ := begins_of_noLexeme hno
  exact Nat.lt_of_not_le fun hle => hne (List.drop_eq_nil_of_le hle)

namespace Partition

theorem offset_le (h : Partition cs ts) (ht : t ∈ ts) : t.offset ≤ cs.length := by
  obtain ⟨us, rfl, -⟩ := h.ends
  obtain ht | ht := List.mem_append.mp ht
  · exact Nat.le_of_lt ((List.pairwise_append.mp h.increasing).2.2 t ht _ (List.mem_singleton.mpr rfl))
  · rw [List.mem_singleton.mp ht]

theorem offset_of_eof (h : Partition cs ts) (ht : t ∈ ts) (hk : t.kind = .eof) :
    t.offset = cs.length := by
  obtain ⟨us, rfl, hus⟩ := h.ends
  obtain ht | ht := List.mem_append.mp ht
  · exact absurd hk (hus t ht)
  · rw [List.mem_singleton.mp ht]

/-- A text without tokens is blank. -/
theorem isBlank_of_eof (h : Partition cs ts) (hts : ∀ t ∈ ts, t.kind = .eof) :
    ∀ c ∈ cs, isBlank c = true := by
  obtain ⟨us, rfl, hus⟩ := h.ends
  cases us with
  | nil =>
    have hbefore := h.before _ rfl
    rwa [List.take_length] at hbefore
  | cons u us => exact absurd (hts u List.mem_cons_self) (hus u List.mem_cons_self)

theorem follows_of_isInfix (h : Partition cs ts) (ht : [t, t'] <:+: ts) : Follows cs t t' := by
  have hpair : [t, t'].IsChain (Follows cs) := List.IsChain.infix h.follows ht
  exact List.isChain_pair.mp hpair

/-- The place of a token is that of its lexeme. -/
theorem exists_spells (h : Partition cs ts) (ht : t ∈ ts) (hk : t.kind ≠ .eof) :
    ∃ text, Spells text t.kind ∧ text <+: cs.drop t.offset := by
  obtain ⟨us, rfl, -⟩ := h.ends
  obtain ht | ht := List.mem_append.mp ht
  · obtain ⟨before, after, rfl⟩ := List.append_of_mem ht
    obtain ⟨t', rest, hrest⟩ : ∃ t' rest, after ++ [⟨.eof, cs.length⟩] = t' :: rest :=
      List.exists_cons_of_ne_nil (List.append_ne_nil_of_right_ne_nil _ (List.cons_ne_nil _ _))
    have hinfix : [t, t'] <:+: before ++ t :: after ++ [⟨.eof, cs.length⟩] :=
      ⟨before, rest, by simp only [List.append_assoc, List.cons_append, List.nil_append, hrest]⟩
    obtain ⟨text, blanks, hspan⟩ := h.follows_of_isInfix hinfix
    exact ⟨text, hspan.spells, hspan.isLongest.isPrefix⟩
  · rw [List.mem_singleton.mp ht] at hk
    exact absurd rfl hk

end Partition

end Token

end CurvePlot
