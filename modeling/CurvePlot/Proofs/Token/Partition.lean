import CurvePlot.Proofs.Except
import CurvePlot.Proofs.Token.Reading

/-! Tokens and the text that they are read from.

The tokens of a text share it out among them: each one has its lexeme and the blanks behind it, up to
the place of the next one (`stream_ok`). A text without tokens has them up to the place of its error,
where no lexeme stands (`stream_error`). -/

namespace CurvePlot.Token

open Lexeme

/-- From the place of the token `t` in the text `cs` up to that of `t'` stand its lexeme, which is the
longest one there, and blanks. -/
structure Spans (cs : List Char) (t t' : Token) (text blanks : List Char) : Prop where
  drop_eq : cs.drop t.offset = text ++ (blanks ++ cs.drop t'.offset)
  offset_eq : t'.offset = t.offset + text.length + blanks.length
  spells : Spells text t.kind
  isLongest : IsLongest text (cs.drop t.offset)
  isBlank : ∀ c ∈ blanks, isBlank c = true

/-- The token `t'` of the text `cs` is the next one after `t`. -/
def Follows (cs : List Char) (t t' : Token) : Prop := ∃ text blanks, Spans cs t t' text blanks

/-- The tokens `ts` share out the text `cs`. -/
structure Partition (cs : List Char) (ts : List Token) : Prop where
  ends : ∃ us, ts = us ++ [⟨.eof, cs.length⟩] ∧ ∀ u ∈ us, u.kind ≠ .eof
  increasing : ts.Pairwise (·.offset < ·.offset)
  before : ∀ t ∈ ts.head?, ∀ c ∈ cs.take t.offset, isBlank c = true
  follows : ts.IsChain (Follows cs)

/-- No lexeme that can be used stands at the front of `cs`, for the reason that the error gives. -/
def NoLexeme (cs : List Char) : LexError → Prop
  | .unexpectedCharacter _ ch =>
    (∃ rest, cs = ch :: rest ∧ isBlank ch = false ∧ Unexpected ch rest) ∧
      ∀ text, Lexical text → ¬text <+: cs
  | .malformedNumber _ => Numeral.Broken cs ∨ Overflows cs

/-- The text `cs` has tokens up to the place of the error `e`, and none there. -/
structure Stuck (cs : List Char) (e : LexError) : Prop where
  before : ∃ ts, tokenize (String.ofList (cs.take e.offset)) = .ok ts
  noLexeme : NoLexeme (cs.drop e.offset) e

variable {s : String} {cs rest text blanks : List Char} {t t' : Token} {ts : List Token}
  {start : Nat} {e : LexError}

theorem Follows.offset_lt (h : Follows cs t t') : t.offset < t'.offset := by
  obtain ⟨text, blanks, h⟩ := h
  have hpos := List.length_pos_iff.mpr (read_ne_nil h.spells.read)
  have hoffset := h.offset_eq
  omega

theorem pairwise_offset (h : ts.IsChain (Follows cs)) : ts.Pairwise (·.offset < ·.offset) :=
  (h.imp fun _ _ h => h.offset_lt).pairwise

theorem drop_start_add (h : cs.drop start = text ++ rest) : cs.drop (start + text.length) = rest := by
  rw [← List.drop_drop, h, List.drop_left]

/-! ## Texts with tokens -/

/-- What is left of a text is shared out among its tokens, behind some blanks. -/
theorem stream_ok (hrest : cs.drop start = rest) (hstart : start ≤ cs.length)
    (h : (stream start rest).mapM id = .ok ts) :
    (∃ us, ts = us ++ [⟨.eof, cs.length⟩] ∧ ∀ u ∈ us, u.kind.Written) ∧
      ts.IsChain (Follows cs) ∧
        ∃ t ts' blanks, ts = t :: ts' ∧ t.offset = start + blanks.length ∧
          rest = blanks ++ cs.drop t.offset ∧ ∀ c ∈ blanks, isBlank c = true := by
  fun_induction stream start rest generalizing ts with
  | case1 start rest offset =>
    rename_i hr
    rw [List.mapM_cons, List.mapM_nil] at h
    cases h
    have hblanks := List.takeWhile_append_dropWhile (p := isBlank) (l := rest)
    rw [read_finished hr, List.append_nil] at hblanks
    have hlen : offset = cs.length := by
      have := congrArg List.length hrest
      rw [List.length_drop] at this
      simp only [offset, hblanks]
      omega
    refine ⟨⟨[], by rw [hlen]; rfl, nofun⟩, .singleton _, _, [], rest.takeWhile isBlank, rfl, rfl, ?_,
      all_takeWhile⟩
    rw [hlen, List.drop_length, List.append_nil, hblanks]
  | case2 start rest offset kind text rest' hr =>
    rename_i ih
    rw [List.mapM_cons] at h
    obtain ⟨_, ⟨⟩, h⟩ := Except.bind_eq_ok.mp h
    obtain ⟨ts, hts, ⟨⟩⟩ := Except.bind_eq_ok.mp h
    have hblanks := List.takeWhile_append_dropWhile (p := isBlank) (l := rest)
    have hdrop : cs.drop offset = rest.dropWhile isBlank :=
      drop_start_add (hrest.trans hblanks.symm)
    have htext : cs.drop offset = text ++ rest' := by rw [hdrop, read_append hr]
    have hlen : offset + text.length ≤ cs.length := by
      have hlen := congrArg List.length htext
      have hpos := List.length_pos_iff.mpr (read_ne_nil hr)
      rw [List.length_drop, List.length_append] at hlen
      omega
    obtain ⟨⟨us, hend, hus⟩, hchain, t, ts', blanks, rfl, hoffset, heq, hblank⟩ :=
      ih (drop_start_add htext) hlen hts
    have hspells := (read_token hr).1
    refine ⟨⟨⟨kind, offset⟩ :: us, by rw [hend]; rfl, ?_⟩, .cons_cons ⟨text, blanks, ?_⟩ hchain, _, _,
      rest.takeWhile isBlank, rfl, rfl, by rw [hdrop, hblanks], all_takeWhile⟩
    · rw [List.forall_mem_cons]
      exact ⟨hspells.written, hus⟩
    · exact ⟨by rw [htext, ← heq], hoffset, hspells, hdrop ▸ read_isLongest hr, hblank⟩
  | case3 | case4 => cases h

theorem tokenize_ok (h : tokenize s = .ok ts) :
    ∃ us o, ts = us ++ [⟨.eof, o⟩] ∧ ∀ u ∈ us, u.kind.Written := by
  obtain ⟨us, hts, hus⟩ := (stream_ok rfl (Nat.zero_le _) h).1
  exact ⟨us, _, hts, hus⟩

theorem partition_of_tokenize (h : tokenize s = .ok ts) : Partition s.toList ts := by
  have hstart : s.toList.drop 0 = s.toList := List.drop_zero
  obtain ⟨⟨us, hts, hus⟩, hchain, t, ts', blanks, rfl, hoffset, hblanks, hblank⟩ :=
    stream_ok hstart (Nat.zero_le _) h
  refine ⟨⟨us, hts, fun u hu => (hus u hu).ne_eof⟩, pairwise_offset hchain, ?_, hchain⟩
  rintro t ⟨⟩
  rw [Nat.zero_add] at hoffset
  rwa [hblanks, hoffset, List.take_left]

/-- What is left of a text is read as its tokens. -/
theorem lexed_of_stream (h : (stream start cs).mapM id = .ok ts) :
    ∃ us o, ts = us ++ [⟨.eof, o⟩] ∧ Lexed cs (us.map (·.kind)) [] := by
  fun_induction stream start cs generalizing ts with
  | case1 start cs offset =>
    rename_i hr
    cases h
    have hblanks := List.takeWhile_append_dropWhile (p := isBlank) (l := cs)
    rw [read_finished hr, List.append_nil] at hblanks
    exact ⟨[], offset, rfl, hblanks ▸ .of_blanks all_takeWhile⟩
  | case2 start cs offset kind text rest hr =>
    rename_i ih
    rw [List.mapM_cons] at h
    obtain ⟨_, ⟨⟩, h⟩ := Except.bind_eq_ok.mp h
    obtain ⟨ts, hts, ⟨⟩⟩ := Except.bind_eq_ok.mp h
    obtain ⟨us, o, rfl, hlexed⟩ := ih hts
    refine ⟨⟨kind, offset⟩ :: us, o, rfl, ?_⟩
    rw [← List.takeWhile_append_dropWhile (p := isBlank) (l := cs)]
    exact .blanks all_takeWhile (.token hr hlexed)
  | case3 | case4 => cases h

theorem lexed_of_tokenize (h : tokenize s = .ok ts) :
    ∃ us o, ts = us ++ [⟨.eof, o⟩] ∧ Lexed s.toList (us.map (·.kind)) [] :=
  lexed_of_stream h

/-! ## Texts without tokens -/

/-- What is left of a text has tokens up to the place of the error. -/
theorem stream_error (h : (stream start cs).mapM id = .error e) :
    ∃ front rest ks, cs = front ++ rest ∧ e.offset = start + front.length ∧ Lexed front ks [] ∧
      NoLexeme rest e := by
  fun_induction stream start cs with
  | case1 => cases h
  | case2 start cs offset kind text rest hr =>
    rename_i ih
    rw [List.mapM_cons] at h
    obtain ⟨⟨⟩⟩ | ⟨_, ⟨⟩, h⟩ := Except.bind_eq_error.mp h
    obtain h | ⟨_, _, ⟨⟩⟩ := Except.bind_eq_error.mp h
    obtain ⟨front, more, ks, rfl, hoffset, hlexed, hno⟩ := ih h
    have hblanks := List.takeWhile_append_dropWhile (p := isBlank) (l := cs)
    refine ⟨cs.takeWhile isBlank ++ (text ++ front), more, kind :: ks, ?_, ?_, ?_, hno⟩
    · rw [List.append_assoc, List.append_assoc, read_append hr, hblanks]
    · rw [hoffset, List.length_append, List.length_append]
      omega
    · -- cut off behind `front`, the lexeme is read as before
      exact .blanks all_takeWhile (.token ((read_token hr).2 front .of_append) hlexed)
  | case3 start cs offset =>
    rename_i hr
    cases h
    have hblanks := List.takeWhile_append_dropWhile (p := isBlank) (l := cs)
    exact ⟨_, _, [], hblanks.symm, rfl, .of_blanks all_takeWhile, read_malformed hr⟩
  | case4 start cs offset ch =>
    rename_i hr
    cases h
    have hblanks := List.takeWhile_append_dropWhile (p := isBlank) (l := cs)
    obtain ⟨rest, hrest, hch⟩ := read_unexpected hr
    have hblank : isBlank ch = false := head_dropWhile ch (by rw [hrest]; rfl)
    refine ⟨_, _, [], hblanks.symm, rfl, .of_blanks all_takeWhile, ⟨rest, hrest, hblank, hch⟩, ?_⟩
    rw [hrest]
    exact fun text => hch.not_isPrefix

theorem stuck_of_tokenize (h : tokenize s = .error e) : Stuck s.toList e := by
  obtain ⟨front, rest, ks, hcs, hoffset, hlexed, hno⟩ := stream_error h
  rw [Nat.zero_add] at hoffset
  have htake : s.toList.take e.offset = front := by rw [hcs, hoffset, List.take_left]
  have hdrop : s.toList.drop e.offset = rest := by rw [hcs, hoffset, List.drop_left]
  refine ⟨?_, by rwa [hdrop]⟩
  rw [htake]
  rw [← String.toList_ofList (l := front)] at hlexed
  obtain ⟨ts, o, hts, -⟩ := hlexed.tokenize
  exact ⟨_, hts⟩

/-- **Tokens share out the text.** Either a text has tokens, each of them the longest lexeme at its
place with nothing but blanks up to the next one, or it has an error at the first place where
neither a blank nor a lexeme stands. -/
theorem tokenize_partition (s : String) :
    (∃ ts, tokenize s = .ok ts ∧ Partition s.toList ts) ∨
      ∃ e, tokenize s = .error e ∧ Stuck s.toList e := by
  cases h : tokenize s with
  | ok ts => exact .inl ⟨ts, rfl, partition_of_tokenize h⟩
  | error e => exact .inr ⟨e, rfl, stuck_of_tokenize h⟩

end CurvePlot.Token
