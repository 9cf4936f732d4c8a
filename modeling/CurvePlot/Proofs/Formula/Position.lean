import CurvePlot.Proofs.Formula.Canonical
import CurvePlot.Proofs.Reader.Faults
import CurvePlot.Proofs.Token.Places

/-! The positions of errors in the text as it was typed.

Both directions of a minus sign keep the number of characters, and what the canonical text has
without hyphens was typed so (`Glyph.typed_of_canonical`). Thus what an error says of the place in the
canonical text holds of the typed text as well (`ReadError.standsIn_of_parse`). -/

namespace CurvePlot

/-- The character `n` of the text begins at the byte `b`, or both are the end of the text. -/
structure IsByteIndex (s : String) (n b : Nat) : Prop where
  /-- The `n` characters before it have `b` bytes. -/
  exists_append : ∃ before after, s = before ++ after ∧ before.length = n ∧ before.utf8ByteSize = b
  isValid : (⟨b⟩ : String.Pos.Raw).IsValid s
  get?_eq : String.Pos.Raw.get? s ⟨b⟩ = s.toList[n]?
  eq_end : b = s.utf8ByteSize ↔ n = s.length

theorem IsByteIndex.of_append (before after : String) :
    IsByteIndex (before ++ after) before.length before.utf8ByteSize where
  exists_append := ⟨before, after, rfl, rfl, rfl⟩
  isValid := String.Pos.Raw.isValid_iff_exists_append.mpr ⟨before, after, rfl, rfl⟩
  get?_eq := by
    have hget := String.get?_of_valid before.toList after.toList
    rw [String.ofList_append, String.ofList_toList, String.ofList_toList,
      ← String.utf8ByteSize_ofList, String.ofList_toList] at hget
    rw [hget, String.toList_append, ← String.length_toList, List.getElem?_append_right le_rfl,
      Nat.sub_self, List.head?_eq_getElem?]
  eq_end := by
    have hempty : after.utf8ByteSize = 0 ↔ after.length = 0 := by
      rw [String.utf8ByteSize_eq_zero_iff, String.length_eq_zero_iff]
    rw [String.utf8ByteSize_append, String.length_append]
    omega

namespace ReadError

/-- What the error says of the text `raw`, typed with the minus sign `g`, is so. -/
def StandsIn (g : Glyph) (raw : String) : ReadError → Prop
  | .lex (.unexpectedCharacter offset ch) =>
    raw.toList[offset]? = some ch ∧ ch ≠ '-' ∧ ch ≠ g.display
  | .lex (.malformedNumber offset) => Numeral.Begins (raw.toList.drop offset)
  | .parse .emptyExpression => (ReadError.parse .emptyExpression).offset = 0
  | .parse (.unknownIdentifier offset name) => name.toList <+: raw.toList.drop offset
  | .parse (.argumentCountMismatch offset _) =>
    ∃ f : Func, ∃ blanks, (∀ c ∈ blanks, Token.isBlank c = true) ∧
      f.name.toList ++ (blanks ++ ['(']) <+: raw.toList.drop offset
  | .parse (.unexpectedToken offset _ _) | .parse (.trailingInput offset)
  | .parse (.tooDeep offset) =>
    (∃ ts, Token.tokenize (g.toCanonical raw) = .ok ts ∧
      ∃ t ∈ ts, t.kind ≠ .eof ∧ t.offset = offset) ∨ offset = raw.length

end ReadError

namespace Glyph

variable {g : Glyph} {raw : String} {p : List Char} {n : Nat}

theorem toList_toCanonical (g : Glyph) (raw : String) :
    (g.toCanonical raw).toList = raw.toList.map fun c => if c = g.display then '-' else c :=
  String.toList_map

theorem length_toCanonical (g : Glyph) (raw : String) :
    (g.toCanonical raw).toList.length = raw.length := by
  rw [toList_toCanonical, List.length_map, String.length_toList]

/-- What has no hyphens in the canonical text was typed so, without the minus sign. -/
theorem typed_of_canonical (hp : '-' ∉ p) (h : p <+: (g.toCanonical raw).toList.drop n) :
    p <+: raw.toList.drop n ∧ g.display ∉ p := by
  rw [toList_toCanonical, ← List.map_drop] at h
  obtain ⟨q, hq, rfl⟩ := List.prefix_map_iff.mp h
  have hdisplay : g.display ∉ q := fun hmem =>
    hp (List.mem_map.mpr ⟨_, hmem, if_pos rfl⟩)
  have hmap : ∀ c ∈ q, (if c = g.display then '-' else c) = c := by
    intro c hc
    refine if_neg ?_
    rintro rfl
    exact hdisplay hc
  rw [List.map_congr_left hmap, List.map_id']
  exact ⟨hq, hdisplay⟩

end Glyph

namespace ReadError

variable {g : Glyph} {raw : String} {e : ReadError} {err : LexError} {ts : List Token}

/-! ## Characters and bytes -/

theorem isByteIndex_byteOffset (h : e.offset ≤ raw.length) :
    IsByteIndex raw e.offset (e.byteOffset raw) := by
  have hraw : String.ofList (raw.toList.take e.offset) ++ String.ofList (raw.toList.drop e.offset) =
      raw := by
    rw [← String.ofList_append, List.take_append_drop, String.ofList_toList]
  have hlength : (String.ofList (raw.toList.take e.offset)).length = e.offset := by
    rw [String.length_ofList, List.length_take, String.length_toList, Nat.min_eq_left h]
  have hindex := IsByteIndex.of_append (String.ofList (raw.toList.take e.offset))
    (String.ofList (raw.toList.drop e.offset))
  rw [hraw, hlength] at hindex
  exact hindex

/-! ## Errors and what they are about -/

theorem standsIn_of_stuck (h : Token.Stuck (g.toCanonical raw).toList err) :
    (ReadError.lex err).StandsIn g raw := by
  cases err with
  | unexpectedCharacter offset ch =>
    obtain ⟨⟨rest, hrest, -, hch⟩, -⟩ := h.noLexeme
    have hhyphen : ch ≠ '-' := by
      rintro rfl
      cases hch.ofChar?
    have hprefix : [ch] <+: (g.toCanonical raw).toList.drop offset := ⟨rest, hrest.symm⟩
    obtain ⟨⟨rest', hraw⟩, hdisplay⟩ :=
      Glyph.typed_of_canonical (fun hmem => hhyphen (List.mem_singleton.mp hmem).symm) hprefix
    refine ⟨?_, hhyphen, fun heq => hdisplay (List.mem_singleton.mpr heq.symm)⟩
    rw [← List.head?_drop, ← hraw]
    rfl
  | malformedNumber offset =>
    have hno : Token.NoLexeme ((g.toCanonical raw).toList.drop offset) _ := h.noLexeme
    obtain ⟨c, hc, hbegins⟩ := Token.begins_of_noLexeme hno
    obtain ⟨rest, hrest⟩ := List.head?_eq_some_iff.mp hc
    have hhyphen : '-' ∉ [c] := by
      intro hmem
      obtain rfl := List.mem_singleton.mp hmem
      obtain h | h := hbegins <;> exact absurd h (by decide)
    obtain ⟨⟨rest', hraw⟩, -⟩ := Glyph.typed_of_canonical hhyphen ⟨rest, hrest.symm⟩
    exact ⟨c, by rw [← hraw]; rfl, hbegins⟩

/-- No hyphen is a letter, a digit or a blank. -/
theorem hyphen_not_mem_call {f blanks : List Char} (hf : ∀ c ∈ f, c.isAlphanum = true)
    (hblanks : ∀ c ∈ blanks, Token.isBlank c = true) : '-' ∉ f ++ (blanks ++ ['(']) := by
  simp only [List.mem_append, not_or]
  exact ⟨fun h => absurd (hf _ h) (by decide), fun h => absurd (hblanks _ h) (by decide), by decide⟩

theorem standsIn_of_foundIn {err : ParseError} (hts : Token.tokenize (g.toCanonical raw) = .ok ts)
    (h : err.FoundIn ts) : (ReadError.parse err).StandsIn g raw := by
  have hpart := Token.partition_of_tokenize hts
  have hplace : ∀ t ∈ ts, (∃ us, Token.tokenize (g.toCanonical raw) = .ok us ∧
      ∃ u ∈ us, u.kind ≠ .eof ∧ u.offset = t.offset) ∨ t.offset = raw.length := by
    intro t ht
    by_cases hk : t.kind = .eof
    · exact .inr (by rw [hpart.offset_of_eof ht hk, Glyph.length_toCanonical])
    · exact .inl ⟨ts, hts, t, ht, hk, rfl⟩
  cases err with
  | emptyExpression => rfl
  | unexpectedToken offset expected found => exact hplace _ h
  | trailingInput offset | tooDeep offset =>
    obtain ⟨t, ht, rfl⟩ := h
    exact hplace t ht
  | unknownIdentifier offset name =>
    obtain ⟨text, hspells, hprefix⟩ := hpart.exists_spells h nofun
    obtain ⟨rfl, hname⟩ := hspells.of_ident
    exact (Glyph.typed_of_canonical (fun hmem => absurd (hname _ hmem) (by decide)) hprefix).1
  | argumentCountMismatch offset found =>
    obtain ⟨f, paren, hcall⟩ := h
    obtain ⟨text, blanks, hspan⟩ := hpart.follows_of_isInfix hcall
    obtain ⟨rfl, hname⟩ := hspan.spells.of_ident
    have hparen : ⟨.lparen, paren⟩ ∈ ts := hcall.subset (by simp)
    obtain ⟨text, hspells, rest, hrest⟩ := hpart.exists_spells hparen nofun
    obtain rfl := hspells.of_lparen
    have hprefix :
        f.name.toList ++ (blanks ++ ['(']) <+: (g.toCanonical raw).toList.drop offset := by
      refine ⟨rest, ?_⟩
      rw [hspan.drop_eq, ← hrest]
      simp only [List.append_assoc]
    have hhyphen := hyphen_not_mem_call hname hspan.isBlank
    exact ⟨f, blanks, hspan.isBlank, (Glyph.typed_of_canonical hhyphen hprefix).1⟩

/-- The position of an error is that of a token, or of the place where no token can be read. -/
theorem offset_le_of_foundIn {cs : List Char} {err : ParseError} (hpart : Token.Partition cs ts)
    (h : err.FoundIn ts) : err.offset ≤ cs.length := by
  cases err with
  | emptyExpression => exact Nat.zero_le _
  | unexpectedToken | unknownIdentifier => exact hpart.offset_le h
  | trailingInput | tooDeep =>
    obtain ⟨t, ht, rfl⟩ := h
    exact hpart.offset_le ht
  | argumentCountMismatch =>
    obtain ⟨f, paren, hcall⟩ := h
    exact hpart.offset_le (hcall.subset List.mem_cons_self)

end ReadError

namespace Formula

variable {g : Glyph} {raw : String} {e : ReadError}

theorem foundIn_of_parse {s : String} {ts : List Token} {err : ParseError}
    (hts : Token.tokenize s = .ok ts) (h : Expr.parse ts = .error err) : err.FoundIn ts := by
  obtain ⟨us, o, rfl, hus⟩ := Token.tokenize_ok hts
  exact Expr.foundIn_of_ofTokens (fun u hu => (hus u hu).ne_eof) rfl h

/-- Errors are about a place in the text and about what stands there. -/
theorem standsIn_of_parse (h : parse g raw = .error e) :
    e.offset ≤ raw.length ∧ e.StandsIn g raw := by
  rw [parse_eq] at h
  rw [← Glyph.length_toCanonical g raw]
  obtain ⟨err, herr, rfl⟩ | ⟨ts, err, hts, herr, rfl⟩ :=
    Expr.error_of_ofText (Except.map_eq_error.mp h)
  · have hstuck := Token.stuck_of_tokenize herr
    exact ⟨Nat.le_of_lt hstuck.offset_lt, ReadError.standsIn_of_stuck hstuck⟩
  · have hfound := foundIn_of_parse hts herr
    exact ⟨ReadError.offset_le_of_foundIn (Token.partition_of_tokenize hts) hfound,
      ReadError.standsIn_of_foundIn hts hfound⟩

/-- **Errors point into the text as typed.** The position of an error is in the text or at its end, the
byte that it is given as is the one where that character begins, behind all the characters before it, and
what the error is about stands there. -/
theorem parse_error_position (h : parse g raw = .error e) :
    e.offset ≤ raw.length ∧ IsByteIndex raw e.offset (e.byteOffset raw) ∧ e.StandsIn g raw := by
  obtain ⟨hle, hstands⟩ := standsIn_of_parse h
  exact ⟨hle, ReadError.isByteIndex_byteOffset hle, hstands⟩

/-- The second of two calls of the same function begins at the eleventh character, behind a minus sign of
three bytes. -/
theorem parse_error_position_call :
    let raw := "sin (x) − sin (x, 1)"
    let e : ReadError := .parse (.argumentCountMismatch 10 2)
    parse (.ofChar '−') raw = .error e ∧ e.offset = 10 ∧ e.byteOffset raw = 12 ∧
      IsByteIndex raw 10 12 ∧ e.StandsIn (.ofChar '−') raw := by
  intro raw e
  have h : parse (.ofChar '−') raw = .error e := by decide +kernel
  have hbyte : e.byteOffset raw = 12 := by decide +kernel
  obtain ⟨-, hindex, hstands⟩ := parse_error_position h
  rw [hbyte] at hindex
  exact ⟨h, rfl, hbyte, hindex, hstands⟩

end Formula

end CurvePlot
