import CurvePlot.Proofs.Token.Alphabet
import CurvePlot.Proofs.Token.Places

/-! The first hyphen of a text, and what is in its place.

The first hyphen of a text with tokens is one of them or the sign of an exponent (`stream_hyphen`). A
text with a character of no lexeme in its place has the same tokens up to there, and an error that
tells the two cases apart (`tokenize_replace`). -/

namespace CurvePlot

namespace Numeral

/-- A literal with a negative exponent, and the place of the sign in it. -/
inductive NegativePower : List Char → Nat → Prop where
  | mk {m w f c ds} : Mantissa m w f → IsMark c → Digits ds →
      NegativePower (m ++ c :: '-' :: ds) (m.length + 1)

variable {m w f ds text : List Char} {d : Decimal} {i : Nat}

theorem not_mem_digits (h : ∀ c ∈ ds, c.isDigit) : '-' ∉ ds := fun hmem =>
  absurd (h _ hmem) (by decide)

theorem Mantissa.not_mem_hyphen (h : Mantissa m w f) : '-' ∉ m := by
  cases h with
  | whole hw => exact not_mem_digits hw.2
  | point hw hf => simp [not_mem_digits hw, not_mem_digits hf.2]

theorem Literal.negativePower (h : Literal text d) (hmem : '-' ∈ text) :
    ∃ i, NegativePower text i := by
  obtain ⟨hm, hes⟩ := h
  have hes' := (List.mem_append.mp hmem).resolve_left hm.not_mem_hyphen
  cases hes with
  | none => cases hes'
  | @some c s ds hc hs hds =>
    have hne : '-' ≠ c := by
      rintro rfl
      exact absurd hc (by simp [IsMark])
    rcases hs with rfl | rfl | rfl
    · exact absurd hes' (by simp [hne, not_mem_digits hds.2])
    · exact ⟨_, .mk hm hc hds⟩
    · exact absurd hes' (by simp [hne, not_mem_digits hds.2])

theorem NegativePower.literal (h : NegativePower text i) : ∃ d, Literal text d := by
  obtain ⟨hm, hc, hds⟩ := h
  exact ⟨_, .mk hm (.some hc (.inr (.inl rfl)) hds)⟩

theorem NegativePower.lt_length (h : NegativePower text i) : i < text.length := by
  obtain ⟨-, -, -⟩ := h
  simp

/-- The literal breaks off when something else stands in the place of its sign. -/
theorem NegativePower.scan_broken (h : NegativePower text i) :
    ∃ front behind, text = front ++ '-' :: behind ∧ front.length = i ∧ '-' ∉ front ∧ front ≠ [] ∧
      ∀ x rest, Separates x → scan (front ++ x :: rest) = .broken := by
  obtain @⟨m, w, f, c, ds, hm, hc, hds⟩ := h
  have hmark : c = 'e' ∨ c = 'E' := hc
  refine ⟨m ++ [c], ds, by simp, by simp, ?_, by simp, fun x rest hx => ?_⟩
  · rcases hmark with rfl | rfl <;> simp [hm.not_mem_hyphen]
  · have hsign : sign (x :: rest) = ([], x :: rest) := sign_of_head (by rintro _ ⟨⟩; exact hx.2)
    have hdigits : (x :: rest).takeWhile Char.isDigit = [] :=
      takeWhile_eq_nil.mpr (by rintro _ ⟨⟩; exact hx.1.isDigit)
    have hpower : power (c :: x :: rest) = none := by
      simp only [power, if_pos hmark, hsign, hdigits, if_true]
    rw [List.append_assoc, List.singleton_append,
      scan_mantissa hm (by rintro _ ⟨⟩; exact hc.isDigit) (by rintro - _ ⟨⟩; exact hc.ne_point), hpower]

end Numeral

namespace Lexeme

open Numeral

variable {text rest cs : List Char} {kind : Token.Kind} {x : Char}

theorem read_broken (h : scan cs = .broken) : read cs = .malformed := by
  cases cs with
  | nil => cases h
  | cons c cs =>
    have hpresent : scan (c :: cs) ≠ .absent := by simp [h]
    simp [read, isAlpha_of_scan hpresent, h]

/-- A lexeme with a hyphen is that hyphen or a literal with a negative exponent. -/
theorem Spells.of_hyphen (h : Spells text kind) (hmem : '-' ∈ text) :
    (text = ['-'] ∧ kind = .minus) ∨ ∃ v i, kind = .number v ∧ NegativePower text i := by
  cases h with
  | name hc hcs =>
    have hname := (Spells.name hc hcs).of_ident.2
    rw [String.toList_ofList] at hname
    exact absurd (hname _ hmem) (by decide)
  | number h =>
    obtain ⟨i, hi⟩ := h.negativePower hmem
    exact .inr ⟨_, i, rfl, hi⟩
  | symbol h =>
    obtain rfl := List.mem_singleton.mp hmem
    cases h
    exact .inl ⟨rfl, rfl⟩

/-- A character that has no use in an expression. -/
structure Foreign (x : Char) : Prop where
  isBlank : Token.isBlank x = false
  not_inLexeme : ¬InLexeme x

namespace Foreign

theorem separates (h : Foreign x) : Separates x := by
  have hx : ∀ c, Token.Kind.ofChar? c ≠ none → x ≠ c := by
    rintro c hc rfl
    exact h.not_inLexeme (.inr (.inr (Option.isSome_iff_ne_none.mpr hc)))
  refine ⟨⟨?_, ?_⟩, hx _ nofun, hx _ nofun⟩
  · exact Bool.eq_false_iff.mpr fun hc => h.not_inLexeme (.inl hc)
  · exact fun hc => h.not_inLexeme (.inr (.inl hc))

theorem unexpected (h : Foreign x) : Unexpected x rest := by
  obtain ⟨⟨halphanum, hpoint⟩, -⟩ := h.separates
  obtain ⟨halpha, hdigit⟩ := Bool.or_eq_false_iff.mp halphanum
  refine ⟨halpha, hdigit, ?_, fun hx => absurd hx hpoint⟩
  exact Option.not_isSome_iff_eq_none.mp fun hx => h.not_inLexeme (.inr (.inr hx))

end Foreign

end Lexeme

namespace Token

open Lexeme Numeral

variable {s : String} {cs text rest : List Char} {ts : List Token} {t t' : Token} {start i : Nat}
  {x : Char} {e : LexError}

/-! ## Reading up to the first hyphen -/

theorem stream_blanks {blanks : List Char} (h : ∀ c ∈ blanks, isBlank c = true) :
    stream start (blanks ++ cs) = stream (start + blanks.length) cs := by
  induction blanks generalizing start with
  | nil => rfl
  | cons c blanks ih =>
    rw [List.forall_mem_cons] at h
    rw [List.cons_append, stream_blank h.1, ih h.2, List.length_cons, Nat.add_right_comm, Nat.add_assoc]

/-- Without blanks in front, the stream goes on with what is read. -/
theorem stream_of_head (h : ∀ c ∈ cs.head?, isBlank c = false) :
    stream start cs =
      match Lexeme.read cs with
      | .finished => [.ok ⟨.eof, start⟩]
      | .token kind text rest => .ok ⟨kind, start⟩ :: stream (start + text.length) rest
      | .malformed => [.error (.malformedNumber start)]
      | .unexpected ch => [.error (.unexpectedCharacter start ch)] := by
  have htake : cs.takeWhile isBlank = [] := takeWhile_eq_nil.mpr h
  have hdrop := List.takeWhile_append_dropWhile (p := isBlank) (l := cs)
  rw [htake, List.nil_append] at hdrop
  rw [stream]
  simp only [htake, List.length_nil, Nat.add_zero]
  split <;> next hread => rw [hdrop] at hread; rw [hread]

theorem stream_malformed (h : Lexeme.read cs = .malformed) :
    stream start cs = [.error (.malformedNumber start)] := by
  have hblank : ∀ c ∈ cs.head?, isBlank c = false := by
    intro c hc
    obtain ⟨rest, rfl⟩ := List.head?_eq_some_iff.mp hc
    rw [← Bool.not_eq_true, isBlank_iff]
    rintro (rfl | rfl | rfl | rfl) <;> simp [Lexeme.read, scan_absent, Kind.ofChar?] at h
  rw [stream_of_head hblank, h]

theorem stream_unexpected (hx : Foreign x) :
    stream start (x :: cs) = [.error (.unexpectedCharacter start x)] := by
  have hread : Lexeme.read (x :: cs) = .unexpected x := hx.unexpected.read
  have hblank : ∀ c ∈ (x :: cs).head?, isBlank c = false := by
    rintro c ⟨⟩
    exact hx.isBlank
  rw [stream_of_head hblank, hread]

/-- In front of the first hyphen a text is read alike, whatever is in the place of the lexeme with the
hyphen, but for its start. -/
theorem stream_hyphen (h : (stream start cs).mapM id = .ok ts) (hmem : '-' ∈ cs) :
    ∃ front text rest kind, cs = front ++ (text ++ rest) ∧ '-' ∉ front ∧ '-' ∈ text ∧
      Spells text kind ∧ ⟨kind, start + front.length⟩ ∈ ts ∧
        ∀ rest' e, StopsLike EndsAt (text ++ rest) rest' →
          (stream (start + front.length) rest').mapM id = .error e →
            (stream start (front ++ rest')).mapM id = .error e := by
  fun_induction stream start cs generalizing ts with
  | case1 start cs offset =>
    rename_i hr
    have hblanks := List.takeWhile_append_dropWhile (p := isBlank) (l := cs)
    rw [read_finished hr, List.append_nil] at hblanks
    rw [← hblanks] at hmem
    exact absurd (all_takeWhile _ hmem) (by decide)
  | case2 start cs offset kind text rest hr =>
    rename_i ih
    rw [List.mapM_cons] at h
    obtain ⟨_, ⟨⟩, h⟩ := Except.bind_eq_ok.mp h
    obtain ⟨ts, hts, ⟨⟩⟩ := Except.bind_eq_ok.mp h
    have hcs : cs = cs.takeWhile isBlank ++ (text ++ rest) := by
      rw [read_append hr, List.takeWhile_append_dropWhile]
    have hblank : ∀ c ∈ cs.takeWhile isBlank, isBlank c = true := all_takeWhile
    have hhyphen : '-' ∉ cs.takeWhile isBlank := fun hc => absurd (hblank _ hc) (by decide)
    obtain ⟨hspells, hread⟩ := read_token hr
    by_cases htext : '-' ∈ text
    · refine ⟨_, text, rest, kind, hcs, hhyphen, htext, hspells, List.mem_cons_self, ?_⟩
      intro rest' e _ he
      rwa [stream_blanks hblank]
    · have hrest : '-' ∈ rest := by
        rw [hcs] at hmem
        simpa [hhyphen, htext] using hmem
      obtain ⟨front, text', rest', kind', rfl, hfront, htext', hspells', hmem', herror⟩ := ih hts hrest
      have hoffset : start + (cs.takeWhile isBlank ++ (text ++ front)).length =
          offset + text.length + front.length := by
        rw [List.length_append, List.length_append]
        omega
      refine ⟨cs.takeWhile isBlank ++ (text ++ front), text', rest', kind', ?_, ?_, htext', hspells', ?_,
        ?_⟩
      · rw [List.append_assoc, List.append_assoc]
        exact hcs
      · simp only [List.mem_append, not_or]
        exact ⟨hhyphen, htext, hfront⟩
      · rw [hoffset]
        exact List.mem_cons_of_mem _ hmem'
      · intro rest'' e hstops he
        rw [hoffset] at he
        rw [List.append_assoc, List.append_assoc, stream_blanks hblank,
          stream_token (hread _ (hstops.append front)), List.mapM_cons, herror rest'' e hstops he]
        rfl
  | case3 | case4 => cases h

/-! ## The sign of an exponent -/

/-- The token at `start` is a literal that has the sign of its exponent at `i`. -/
def ExponentSign (s : String) (start i : Nat) : Prop :=
  ∃ ts v text n, tokenize s = .ok ts ∧ ⟨.number v, start⟩ ∈ ts ∧ NegativePower text n ∧
    text <+: s.toList.drop start ∧ i = start + n

/-- No token begins inside the lexeme of another one. -/
theorem Partition.not_mem_inside (h : Partition cs ts) (ht : t ∈ ts) (hk : t.kind ≠ .eof)
    (htext : Lexical text) (hp : text <+: cs.drop t.offset) (hlt : t.offset < i)
    (hi : i < t.offset + text.length) : ∀ t' ∈ ts, t'.offset ≠ i := by
  rintro t' ht' rfl
  obtain ⟨us, hts, -⟩ := h.ends
  obtain ⟨before, after, rfl⟩ := List.append_of_mem ht
  obtain ⟨u, after, rfl⟩ : ∃ u us, after = u :: us := by
    refine List.exists_cons_of_ne_nil ?_
    rintro rfl
    obtain ⟨-, hend⟩ := List.append_inj' hts rfl
    exact hk (by rw [(List.cons.inj hend).1])
  have hinfix : [t, u] <:+: before ++ t :: u :: after := ⟨before, after, by simp⟩
  obtain ⟨lexeme, blanks, hspan⟩ := h.follows_of_isInfix hinfix
  have hlength := hspan.isLongest.length_le text htext hp
  have hnext := hspan.offset_eq
  have hincreasing := h.increasing
  rw [List.pairwise_append, List.pairwise_cons, List.pairwise_cons] at hincreasing
  obtain ⟨-, ⟨-, hafter, -⟩, hbefore⟩ := hincreasing
  rcases List.mem_append.mp ht' with ht' | ht'
  · have := hbefore t' ht' t List.mem_cons_self
    omega
  · rcases List.mem_cons.mp ht' with rfl | ht'
    · omega
    · rcases List.mem_cons.mp ht' with rfl | ht'
      · omega
      · have := hafter t' ht'
        omega

/-- A hyphen that is a token is not the sign of an exponent. -/
theorem not_exponentSign (h : tokenize s = .ok ts) (ht : ⟨.minus, i⟩ ∈ ts) :
    ¬ExponentSign s start i := by
  rintro ⟨us, v, text, n, hus, hu, hpower, hp, rfl⟩
  obtain rfl : ts = us := Except.ok.inj (h.symm.trans hus)
  obtain ⟨d, hd⟩ := hpower.literal
  have hlt := hpower.lt_length
  have hpos : 0 < n := by
    obtain ⟨-, -, -⟩ := hpower
    exact Nat.succ_pos _
  have hinside := (partition_of_tokenize h).not_mem_inside hu nofun (.inr ⟨d, hd⟩) hp
    (Nat.lt_add_of_pos_right hpos) (Nat.add_lt_add_left hlt start)
  exact hinside _ ht rfl

/-! ## Another character in the place of hyphens -/

/-- With a foreign character for all hyphens, a text has an error at the first of them, or at the
literal with it. -/
theorem tokenize_replace (h : tokenize s = .ok ts) (hmem : '-' ∈ s.toList) (hx : Foreign x) :
    (∃ start, ExponentSign s start (s.toList.idxOf '-') ∧
        tokenize (s.map fun c => if c = '-' then x else c) = .error (.malformedNumber start)) ∨
      (∀ start, ¬ExponentSign s start (s.toList.idxOf '-')) ∧
        tokenize (s.map fun c => if c = '-' then x else c) =
          .error (.unexpectedCharacter (s.toList.idxOf '-') x) := by
  obtain ⟨front, text, rest, kind, hs, hfront, htext, hspells, ht, hread⟩ := stream_hyphen h hmem
  have hkeep {l : List Char} (hl : '-' ∉ l) : l.map (fun c => if c = '-' then x else c) = l := by
    refine (List.map_congr_left fun c hc => if_neg ?_).trans (List.map_id' l)
    rintro rfl
    exact hl hc
  rw [Nat.zero_add] at ht hread
  have hdrop : s.toList.drop front.length = text ++ rest := by rw [hs, List.drop_left]
  simp only [tokenize, String.toList_map]
  rw [hs, List.map_append, hkeep hfront, List.idxOf_append_of_notMem hfront]
  obtain ⟨rfl, rfl⟩ | ⟨v, i, rfl, hpower⟩ := hspells.of_hyphen htext
  · -- the hyphen is a token
    have hidx : front.length + (['-'] ++ rest).idxOf '-' = front.length := by simp
    rw [hidx, List.singleton_append, List.map_cons, if_pos rfl]
    refine .inr ⟨fun start => not_exponentSign h ht, hread _ _ ?_ ?_⟩
    · rintro c ⟨⟩
      exact .inr hx.separates.1
    · rw [stream_unexpected hx]
      rfl
  · -- the hyphen is the sign of an exponent
    obtain ⟨front', behind, rfl, rfl, hfront', hne, hscan⟩ := hpower.scan_broken
    have hidx : (front' ++ '-' :: behind ++ rest).idxOf '-' = front'.length := by
      rw [List.append_assoc, List.idxOf_append_of_notMem hfront']
      simp
    rw [hidx]
    refine .inl ⟨front.length, ⟨ts, v, _, _, h, ht, hpower, hdrop ▸ List.prefix_append _ _, rfl⟩, ?_⟩
    rw [List.append_assoc, List.cons_append, List.map_append, hkeep hfront', List.map_cons, if_pos rfl]
    refine hread _ _ ?_ ?_
    · obtain ⟨c, cs, rfl⟩ := List.exists_cons_of_ne_nil hne
      exact .cons
    · rw [stream_malformed (read_broken (hscan _ _ hx.separates))]
      rfl

end Token

end CurvePlot
