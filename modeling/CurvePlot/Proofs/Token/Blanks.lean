import CurvePlot.Proofs.Expr.RoundTrip
import CurvePlot.Proofs.Token.Hyphen

/-! Blanks between tokens.

Where a blank follows, a text is read as if it ended there (`Lexeme.read_extend`). So the tokens of two
texts with blanks between them are those of both texts (`stream_extend`). Two texts that are put
together between tokens (`Between`) have these tokens even without the blanks (`lexed_of_between`), and
blanks there do not change the tree. -/

namespace CurvePlot

namespace Lexeme

open Numeral

variable {cs more : List Char}

/-- What is read from the front of a text when `more` comes behind all of it. -/
def extend (more : List Char) : Lexeme → Lexeme
  | .finished => read more
  | .token kind text rest => .token kind text (rest ++ more)
  | .malformed => .malformed
  | .unexpected ch => .unexpected ch

theorem stopsLike_append {p : Char → Prop} {rest : List Char} (h : ∀ c ∈ more.head?, p c) :
    StopsLike p rest (rest ++ more) := by
  cases rest with
  | nil => exact fun c hc => .inr (h c hc)
  | cons c rest => exact .cons

theorem read_malformed_append (h : ∀ c ∈ more.head?, Separates c) (hr : read cs = .malformed) :
    read (cs ++ more) = .malformed := by
  cases hs : scan cs with
  | absent =>
    cases cs with
    | nil => cases hr
    | cons c cs =>
      simp only [read, hs] at hr
      split at hr
      · cases hr
      · split at hr <;> cases hr
  | broken =>
    obtain ⟨p, rest, -, rfl, hcut⟩ := scan_broken hs
    rw [List.append_assoc]
    exact read_broken (hcut _ (stopsLike_append h))
  | literal d text rest =>
    rw [read_literal hs] at hr
    split at hr
    · cases hr
    · next hd =>
      have hscan := (scan_literal hs).2 _ (stopsLike_append fun c hc => (h c hc).1)
      rw [← scan_append hs, List.append_assoc, read_literal hscan, if_neg hd]

/-- Where a separator follows, a text is read as if it ended there. -/
theorem read_extend (cs : List Char) (h : ∀ c ∈ more.head?, Separates c) :
    read (cs ++ more) = (read cs).extend more := by
  cases hr : read cs with
  | finished => rw [read_finished hr, List.nil_append, extend]
  | token kind text rest =>
    rw [← read_append hr, List.append_assoc]
    exact (read_token hr).2 _ (stopsLike_append fun c hc => (h c hc).1)
  | malformed => exact read_malformed_append h hr
  | unexpected ch =>
    obtain ⟨rest, rfl, hch⟩ := read_unexpected hr
    have hstops : StopsLike Separates rest (rest ++ more) := stopsLike_append h
    exact Unexpected.read
      { isAlpha := hch.isAlpha
        isDigit := hch.isDigit
        ofChar? := hch.ofChar?
        point := fun hp => hstops.head (fun _ h => h.1.isDigit) (hch.point hp) }

end Lexeme

/-- Where a separator follows, a text has the tokens that it has alone. -/
theorem Lexed.extend {cs more rest : List Char} {ks : List Token.Kind} (h : Lexed cs ks rest)
    (hrest : rest = []) (hmore : ∀ c ∈ more.head?, Numeral.Separates c) :
    Lexed (cs ++ more) ks more := by
  induction h with
  | done =>
    subst hrest
    exact .done
  | blank hc _ ih => exact .blank hc (ih hrest)
  | @token cs kind text cs' ks rest hr _ ih =>
    have hread := Lexeme.read_extend cs hmore
    rw [hr, Lexeme.extend] at hread
    exact .token hread (ih hrest)

namespace Token

open Lexeme

/-- The same token, `n` characters further on. -/
def shift (n : Nat) (t : Token) : Token := { t with offset := n + t.offset }

variable {s t w : String} {cs rest more blanks : List Char} {ts us : List Token} {start n : Nat}

theorem separates_of_isBlank {c : Char} (h : isBlank c = true) : Numeral.Separates c := by
  rw [isBlank_iff] at h
  rcases h with rfl | rfl | rfl | rfl <;> exact ⟨⟨rfl, by decide⟩, by decide, by decide⟩

theorem head_separates (more : List Char) (hne : blanks ≠ [])
    (h : ∀ c ∈ blanks, isBlank c = true) :
    ∀ c ∈ (blanks ++ more).head?, Numeral.Separates c := by
  obtain ⟨b, blanks, rfl⟩ := List.exists_cons_of_ne_nil hne
  rintro c ⟨⟩
  exact separates_of_isBlank (h b List.mem_cons_self)

/-! ## Two texts with blanks between them -/

theorem stream_eq (start : Nat) (cs : List Char) :
    stream start cs =
      match Lexeme.read (cs.dropWhile isBlank) with
      | .finished => [.ok ⟨.eof, start + (cs.takeWhile isBlank).length⟩]
      | .token kind text rest =>
        .ok ⟨kind, start + (cs.takeWhile isBlank).length⟩ ::
          stream (start + (cs.takeWhile isBlank).length + text.length) rest
      | .malformed => [.error (.malformedNumber (start + (cs.takeWhile isBlank).length))]
      | .unexpected ch =>
        [.error (.unexpectedCharacter (start + (cs.takeWhile isBlank).length) ch)] := by
  rw [stream]
  split <;> next h => rw [h]

/-- The tokens of a text that starts further on. -/
theorem stream_shift (n start : Nat) (cs : List Char) :
    (stream (n + start) cs).mapM id =
      (((stream start cs).mapM id).mapError (.shift n)).map (List.map (shift n)) := by
  fun_induction stream start cs with
  | case2 start cs offset kind text rest hr ih =>
    have hoffset : n + start + (cs.takeWhile isBlank).length = n + offset := Nat.add_assoc ..
    rw [Nat.add_assoc .. |>.symm] at ih
    rw [stream_eq, hr]
    simp only [hoffset]
    rw [List.mapM_cons, List.mapM_cons, ih]
    cases (stream (offset + text.length) rest).mapM id <;> rfl
  | case1 start cs offset hr | case3 start cs offset hr | case4 start cs offset ch hr =>
    rw [stream_eq, hr, Nat.add_assoc n]
    rfl

/-- Behind the tokens of a text and some blanks come those of the text behind the blanks. -/
theorem stream_extend (hw : blanks ≠ []) (hblanks : ∀ c ∈ blanks, isBlank c = true) :
    (stream start (cs ++ (blanks ++ more))).mapM id =
      ((stream start cs).mapM id).bind fun ts =>
        ((stream (start + (cs ++ blanks).length) more).mapM id).map (ts.dropLast ++ ·) := by
  have hseparates := head_separates more hw hblanks
  -- the blanks at the front are skipped, and the lexeme behind them is read as it was
  have hfront (start : Nat) (cs : List Char) : stream start (cs ++ (blanks ++ more)) =
      stream (start + (cs.takeWhile isBlank).length) (cs.dropWhile isBlank ++ (blanks ++ more)) := by
    conv_lhs => rw [← List.takeWhile_append_dropWhile (p := isBlank) (l := cs), List.append_assoc]
    exact stream_blanks all_takeWhile
  fun_induction stream start cs with
  | case1 start cs offset hr =>
    have hdrop := read_finished hr
    have hlength : (cs.takeWhile isBlank).length = cs.length := by
      conv_rhs => rw [← List.takeWhile_append_dropWhile (p := isBlank) (l := cs), hdrop]
      rw [List.append_nil]
    rw [hfront, hdrop, List.nil_append, stream_blanks hblanks, hlength, Nat.add_assoc,
      ← List.length_append]
    cases (stream (start + (cs ++ blanks).length) more).mapM id <;> rfl
  | case2 start cs offset kind text rest hr ih =>
    have hread := read_extend (cs.dropWhile isBlank) hseparates
    rw [hr, extend] at hread
    have hlength : offset + text.length + (rest ++ blanks).length = start + (cs ++ blanks).length := by
      have hcs : cs.length = (cs.takeWhile isBlank ++ (text ++ rest)).length := by
        rw [read_append hr, List.takeWhile_append_dropWhile]
      simp only [List.length_append] at hcs ⊢
      omega
    rw [hfront, stream_token hread, List.mapM_cons, ih, List.mapM_cons, hlength]
    cases hts : (stream (offset + text.length) rest).mapM id with
    | error e => rfl
    | ok ts =>
      have hne : ts ≠ [] := by
        obtain ⟨us, o, rfl, -⟩ := lexed_of_stream hts
        exact List.append_ne_nil_of_right_ne_nil _ (List.cons_ne_nil _ _)
      have hlast : (⟨kind, offset⟩ :: ts : List Token).dropLast = ⟨kind, offset⟩ :: ts.dropLast :=
        List.dropLast_cons_of_ne_nil hne
      cases (stream (start + (cs ++ blanks).length) more).mapM id with
      | error e => rfl
      | ok us => exact congrArg (fun ts => Except.ok (ts ++ us)) hlast.symm
  | case3 start cs offset hr =>
    have hread := read_extend (cs.dropWhile isBlank) hseparates
    rw [hr, extend] at hread
    rw [hfront, stream_malformed hread]
    rfl
  | case4 start cs offset ch hr =>
    have hread := read_extend (cs.dropWhile isBlank) hseparates
    obtain ⟨rest, hrest, -⟩ := read_unexpected hr
    have hblank : ∀ c ∈ (cs.dropWhile isBlank ++ (blanks ++ more)).head?, isBlank c = false := by
      have hhead : ∀ c ∈ (cs.dropWhile isBlank).head?, isBlank c = false := head_dropWhile
      rw [hrest] at hhead ⊢
      exact hhead
    rw [hr, extend] at hread
    rw [hfront, stream_of_head hblank, hread]
    rfl

/-- Blanks between two texts keep their tokens apart. -/
theorem tokenize_extend (hw : w ≠ "") (hblanks : ∀ c ∈ w.toList, isBlank c = true) :
    tokenize (s ++ w ++ t) =
      (tokenize s).bind fun ts =>
        ((tokenize t).mapError (.shift (s ++ w).length)).map fun us =>
          ts.dropLast ++ us.map (shift (s ++ w).length) := by
  have hne : w.toList ≠ [] := fun h => hw (String.toList_inj.mp h)
  have hshift := stream_shift (s ++ w).length 0 t.toList
  rw [tokenize, String.append_assoc, String.toList_append, String.toList_append,
    stream_extend hne hblanks, ← String.toList_append, Nat.zero_add, String.length_toList]
  rw [Nat.add_zero] at hshift
  simp only [hshift, Except.map_map]
  rfl

/-! ## Between tokens -/

/-- No token of `s ++ t` has its lexeme partly in `s` and partly in `t`. -/
def Between (s t : String) : Prop :=
  ∃ ts, tokenize (s ++ t) = .ok ts ∧ ∀ u ∈ ts, u.offset < s.length →
    ∀ text, Spells text u.kind → IsLongest text ((s ++ t).toList.drop u.offset) →
      u.offset + text.length ≤ s.length

/-- Where a token begins, no other one goes on. -/
theorem between_of_mem (h : tokenize (s ++ t) = .ok ts) (hu : ∃ u ∈ ts, u.offset = s.length) :
    Between s t := by
  obtain ⟨v, hv, hoffset⟩ := hu
  refine ⟨ts, h, fun u hu hlt text hspells hlongest => Nat.le_of_not_lt fun hinside => ?_⟩
  exact (partition_of_tokenize h).not_mem_inside hu hspells.written.ne_eof (.inl ⟨_, hspells⟩)
    hlongest.isPrefix hlt hinside v hv hoffset

/-- A text that is cut between tokens has the tokens of both parts. -/
theorem lexed_of_cut {front back : List Char} (hcs : cs.drop start = front ++ back)
    (h : (stream start (front ++ back)).mapM id = .ok ts)
    (hcut : ∀ u ∈ ts, u.offset < start + front.length → ∀ text, Spells text u.kind →
      IsLongest text (cs.drop u.offset) → u.offset + text.length ≤ start + front.length) :
    ∃ ks ls, Lexed front ks [] ∧ Lexed back ls [] ∧ Lexed (front ++ back) (ks ++ ls) [] := by
  generalize hrest : front ++ back = rest at hcs h
  fun_induction stream start rest generalizing front ts with
  | case1 start rest offset =>
    rename_i hr
    have hblanks : ∀ c ∈ rest, isBlank c = true := by
      rw [← List.takeWhile_append_dropWhile (p := isBlank) (l := rest), read_finished hr,
        List.append_nil]
      exact all_takeWhile
    have hparts := hblanks
    rw [← hrest, List.forall_mem_append] at hparts
    exact ⟨[], [], .of_blanks hparts.1, .of_blanks hparts.2, .of_blanks hblanks⟩
  | case2 start rest offset kind text rest' hr =>
    rename_i ih
    rw [List.mapM_cons] at h
    obtain ⟨_, ⟨⟩, h⟩ := Except.bind_eq_ok.mp h
    obtain ⟨us, hus, ⟨⟩⟩ := Except.bind_eq_ok.mp h
    have hblanks : ∀ c ∈ rest.takeWhile isBlank, isBlank c = true := all_takeWhile
    have hsplit := List.takeWhile_append_dropWhile (p := isBlank) (l := rest)
    have hdrop : cs.drop offset = rest.dropWhile isBlank := drop_start_add (hcs.trans hsplit.symm)
    have htext : cs.drop offset = text ++ rest' := by rw [hdrop, read_append hr]
    rw [← read_append hr] at hsplit
    by_cases hfront : offset < start + front.length
    · -- the first lexeme is in the part in front of the cut
      have hle : offset + text.length ≤ start + front.length :=
        hcut _ List.mem_cons_self hfront text (read_token hr).1 (hdrop ▸ read_isLongest hr)
      have hprefix : rest.takeWhile isBlank ++ text <+: front := by
        have hspells : rest.takeWhile isBlank ++ text <+: rest :=
          ⟨rest', by rw [List.append_assoc, hsplit]⟩
        refine List.prefix_of_prefix_length_le hspells ⟨back, hrest⟩ ?_
        rw [List.length_append]
        omega
      obtain ⟨front', rfl⟩ := hprefix
      have hrest' : front' ++ back = rest' := by
        have happend := hrest.trans hsplit.symm
        rw [List.append_assoc, List.append_assoc] at happend
        exact List.append_cancel_left (List.append_cancel_left happend)
      have hlength : start + (rest.takeWhile isBlank ++ text ++ front').length =
          offset + text.length + front'.length := by
        rw [List.length_append, List.length_append]
        omega
      rw [hlength] at hcut
      obtain ⟨ks, ls, hks, hls, hksls⟩ :=
        ih (fun u hu => hcut u (List.mem_cons_of_mem _ hu)) hrest' (drop_start_add htext) hus
      have hread := (read_token hr).2 front' (.of_isPrefix ⟨back, hrest'⟩)
      refine ⟨kind :: ks, ls, ?_, hls, ?_⟩
      · rw [List.append_assoc]
        exact .blanks hblanks (.token hread hks)
      · rw [← hsplit]
        exact .blanks hblanks (.token ((read_append hr).symm ▸ hr) hksls)
    · -- there are only blanks in front of the cut
      obtain ⟨bs, hbs⟩ : front <+: rest.takeWhile isBlank := by
        have hfront' : front <+: rest := ⟨back, hrest⟩
        exact List.prefix_of_prefix_length_le hfront' ⟨text ++ rest', hsplit⟩ (by omega)
      have hback : bs ++ (text ++ rest') = back := by
        rw [← hbs, List.append_assoc, ← hrest] at hsplit
        exact List.append_cancel_left hsplit
      rw [← hbs, List.forall_mem_append] at hblanks
      obtain ⟨us, o, -, hlexed⟩ := lexed_of_stream hus
      have hls := Lexed.blanks hblanks.2 (.token ((read_append hr).symm ▸ hr) hlexed)
      rw [hback] at hls
      exact ⟨[], _, .of_blanks hblanks.1, hls, hrest ▸ .blanks hblanks.1 hls⟩
  | case3 | case4 => cases h

theorem lexed_of_between (h : Between s t) :
    ∃ ks ls, Lexed s.toList ks [] ∧ Lexed t.toList ls [] ∧ Lexed (s ++ t).toList (ks ++ ls) [] := by
  obtain ⟨ts, hts, hcut⟩ := h
  rw [tokenize] at hts
  rw [String.toList_append] at hts hcut ⊢
  refine lexed_of_cut List.drop_zero hts fun u hu => ?_
  rw [Nat.zero_add, String.length_toList]
  exact hcut u hu

end Token

namespace Expr

variable {s t w : String} {a : Expr} {ks ls : List Token.Kind}

/-- Which tree a text has is told by the kinds of its tokens. -/
theorem ofText_eq_ok_iff (h : Lexed s.toList ks []) :
    ofText s = .ok a ↔ ∃ k p, Nests .expression ks a k p ∧ p ≤ maxDepth := by
  constructor
  · intro ha
    obtain ⟨ts, hts, hparse⟩ := of_ofText ha
    obtain ⟨us, o, rfl, hus⟩ := Token.tokenize_ok hts
    obtain ⟨us', o', hlast, hlexed⟩ := Token.lexed_of_tokenize hts
    obtain ⟨rfl, -⟩ := List.append_inj' hlast rfl
    obtain ⟨k, p, hnests⟩ :=
      (derives_of_ofTokens (fun u hu => (hus u hu).ne_eof) rfl hparse).nests
    refine ⟨k, p, h.unique hlexed ▸ hnests, Nat.le_of_not_lt fun hlt => ?_⟩
    obtain ⟨hp, -⟩ | ⟨-, o', herror⟩ := hnests.ofTokens_some (t := ⟨.eof, o⟩) (n := maxDepth) rfl
    · omega
    · cases hparse.symm.trans herror
  · rintro ⟨k, p, hnests, hp⟩
    obtain ⟨-, ha⟩ | ⟨hlt, -⟩ := ofText_of_nests h hnests
    · exact ha
    · omega

theorem ofText_congr {t : String} (hs : Lexed s.toList ks []) (ht : Lexed t.toList ks []) :
    ofText s = .ok a ↔ ofText t = .ok a :=
  (ofText_eq_ok_iff hs).trans (ofText_eq_ok_iff ht).symm

end Expr

namespace Token

/-- **Blanks keep texts apart.** With blanks between them, two texts are split as each of them is, up to
the first error, and the places in the second one move by what stands in front of it. Blanks that are
put between the tokens of a text do not change which tree it is read as. -/
theorem tokenize_blanks (s t : String) (hw : w ≠ "") (hblanks : ∀ c ∈ w.toList, isBlank c = true) :
    (∀ e, tokenize s = .error e → tokenize (s ++ w ++ t) = .error e) ∧
      (∀ ts e, tokenize s = .ok ts → tokenize t = .error e →
        tokenize (s ++ w ++ t) = .error (e.shift (s ++ w).length)) ∧
      (∀ ts us, tokenize s = .ok ts → tokenize t = .ok us →
        ∃ front, ts = front ++ [⟨.eof, s.length⟩] ∧
          tokenize (s ++ w ++ t) = .ok (front ++ us.map (shift (s ++ w).length))) ∧
      (Between s t → ∀ a, Expr.ofText (s ++ w ++ t) = .ok a ↔ Expr.ofText (s ++ t) = .ok a) := by
  have hextend := tokenize_extend (s := s) (t := t) hw hblanks
  refine ⟨fun e hs => ?_, fun ts e hs ht => ?_, fun ts us hs ht => ?_, fun hbetween a => ?_⟩
  · rw [hextend, hs]
    rfl
  · rw [hextend, hs, ht]
    rfl
  · obtain ⟨front, rfl, -⟩ := (partition_of_tokenize hs).ends
    refine ⟨front, by rw [String.length_toList], ?_⟩
    rw [hextend, hs, ht]
    exact congrArg (fun ts => Except.ok (ts ++ _)) List.dropLast_concat
  · obtain ⟨ks, ls, hks, hls, hksls⟩ := lexed_of_between hbetween
    refine Expr.ofText_congr ?_ hksls
    have hne : w.toList ≠ [] := fun h => hw (String.toList_inj.mp h)
    rw [String.append_assoc, String.toList_append, String.toList_append]
    exact (hks.extend rfl (head_separates _ hne hblanks)).append (.blanks hblanks hls)

/-- Between the name of a function and its parenthesis, blanks do not matter. -/
theorem tokenize_blanks_call :
    let s := "2.5e1*sin"
    let w := " \t"
    let t := "(x)"
    w ≠ "" ∧ (∀ c ∈ w.toList, isBlank c = true) ∧ Between s t ∧
      ∃ a, Expr.ofText (s ++ t) = .ok a ∧ Expr.ofText (s ++ w ++ t) = .ok a := by
  intro s w t
  have hw : w ≠ "" := by decide
  have hblanks : ∀ c ∈ w.toList, isBlank c = true := List.all_eq_true.mp (by decide +kernel)
  have hts : tokenize (s ++ t) = .ok [⟨.number 25, 0⟩, ⟨.star, 5⟩, ⟨.ident "sin", 6⟩, ⟨.lparen, 9⟩,
      ⟨.ident "x", 10⟩, ⟨.rparen, 11⟩, ⟨.eof, 12⟩] := by
    decide +kernel
  have hbetween : Between s t := between_of_mem hts ⟨⟨.lparen, 9⟩, by simp, by decide⟩
  have ha : Expr.ofText (s ++ t) = .ok (.binary .mul (.number 25) (.call .sin .var)) := by
    decide +kernel
  exact ⟨hw, hblanks, hbetween, _, ha, ((tokenize_blanks s t hw hblanks).2.2.2 hbetween _).mpr ha⟩

end Token

end CurvePlot
