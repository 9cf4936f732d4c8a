import Mathlib.Data.List.TakeWhile
import CurvePlot.Numeral

/-! The grammar of literals.

`Literal text d` says which texts are literals, and of which decimal, without a scanner. Scanning
takes the longest literal from the front of a text: whatever comes behind it matters for its first
character only (`scan_literal`), so that no longer one can stand there (`Literal.length_le`). Else it
finds a literal that breaks off (`broken_of_scan`), or none. -/

namespace CurvePlot

/-! ## Where a part of a text ends -/

/-- `c` goes on with no name and no literal. -/
def EndsAt (c : Char) : Prop := c.isAlphanum = false ∧ c ≠ '.'

/-- No name and no literal goes on with `rest`. -/
def Ends (rest : List Char) : Prop := ∀ c ∈ rest.head?, EndsAt c

namespace Ends

theorem nil : Ends [] := nofun

theorem cons {c : Char} {cs : List Char} (h : c.isAlphanum = false) (hp : c ≠ '.') :
    Ends (c :: cs) := by
  rintro d ⟨⟩
  exact ⟨h, hp⟩

theorem isAlphanum {rest : List Char} (h : Ends rest) : ∀ c ∈ rest.head?, c.isAlphanum = false :=
  fun c hc => (h c hc).1

end Ends

theorem EndsAt.isDigit {c : Char} (h : EndsAt c) : c.isDigit = false :=
  (Bool.or_eq_false_iff.mp h.1).2

/-- `rest'` is over, begins with the first character of `rest`, or begins with a character that
satisfies `p`. -/
def StopsLike (p : Char → Prop) (rest rest' : List Char) : Prop :=
  ∀ c ∈ rest'.head?, c ∈ rest.head? ∨ p c

theorem Ends.stopsLike {rest rest' : List Char} (h : Ends rest') : StopsLike EndsAt rest rest' :=
  fun c hc => .inr (h c hc)

namespace StopsLike

variable {p q : Char → Prop} {rest rest' : List Char}

theorem nil : StopsLike p rest [] := nofun

theorem cons {c : Char} {cs cs' : List Char} : StopsLike p (c :: cs) (c :: cs') := by
  rintro d ⟨⟩
  exact .inl rfl

theorem of_append {more : List Char} : StopsLike p (rest' ++ more) rest' := by
  cases rest' with
  | nil => exact nil
  | cons c cs => exact cons

theorem of_isPrefix (h : rest' <+: rest) : StopsLike p rest rest' := by
  obtain ⟨more, rfl⟩ := h
  exact of_append

theorem append (h : StopsLike p rest rest') (cs : List Char) :
    StopsLike p (cs ++ rest) (cs ++ rest') := by
  cases cs with
  | nil => exact h
  | cons c cs => exact cons

/-- What holds of the first character of `rest` and of all that satisfy `p`. -/
theorem head (h : StopsLike p rest rest') (hp : ∀ c, p c → q c) (hq : ∀ c ∈ rest.head?, q c) :
    ∀ c ∈ rest'.head?, q c :=
  fun c hc => (h c hc).elim (hq c) (hp c)

end StopsLike

section span

variable {p : Char → Bool} {cs rest : List Char}

theorem takeWhile_append_rest (hcs : ∀ c ∈ cs, p c) (hrest : ∀ c ∈ rest.head?, p c = false) :
    (cs ++ rest).takeWhile p = cs := by
  rw [List.takeWhile_append_of_pos hcs]
  cases rest with
  | nil => simp
  | cons c rest => rw [List.takeWhile_cons_of_neg (by simp [hrest c rfl]), List.append_nil]

theorem dropWhile_append_rest (hcs : ∀ c ∈ cs, p c) (hrest : ∀ c ∈ rest.head?, p c = false) :
    (cs ++ rest).dropWhile p = rest := by
  rw [List.dropWhile_append_of_pos hcs]
  cases rest with
  | nil => rfl
  | cons c rest => rw [List.dropWhile_cons_of_neg (by simp [hrest c rfl])]

theorem all_takeWhile : ∀ c ∈ cs.takeWhile p, p c :=
  fun _ hc => List.mem_takeWhile_imp hc

theorem takeWhile_eq_nil : cs.takeWhile p = [] ↔ ∀ c ∈ cs.head?, p c = false := by
  cases cs with
  | nil => exact ⟨fun _ => nofun, fun _ => rfl⟩
  | cons c cs => simp [List.takeWhile_cons]

theorem head_dropWhile : ∀ c ∈ (cs.dropWhile p).head?, p c = false := by
  intro c hc
  have h := List.head?_dropWhile_not p cs
  rw [Option.mem_def.mp hc] at h
  exact h

end span

namespace Numeral

/-! ## The grammar -/

/-- One digit or more. -/
def Digits (cs : List Char) : Prop := cs ≠ [] ∧ ∀ c ∈ cs, c.isDigit

/-- The digits of a literal, with those before and behind its point. -/
inductive Mantissa : List Char → List Char → List Char → Prop where
  | whole {w} : Digits w → Mantissa w w []
  | point {w f} : (∀ c ∈ w, c.isDigit) → Digits f → Mantissa (w ++ '.' :: f) w f

/-- The letter in front of an exponent. -/
def IsMark (c : Char) : Prop := c = 'e' ∨ c = 'E'

/-- An optional sign. -/
def IsSign (s : List Char) : Prop := s = [] ∨ s = ['-'] ∨ s = ['+']

/-- An optional power of ten. -/
inductive Power : List Char → Int → Prop where
  | none : Power [] 0
  | some {c s ds} : IsMark c → IsSign s → Digits ds →
      Power (c :: (s ++ ds)) (signed s (Nat.ofDigitChars 10 ds 0))

/-- `digits[.digits]` or `.digits` with an optional power of ten. -/
inductive Literal : List Char → Decimal → Prop where
  | mk {m w f es n} : Mantissa m w f → Power es n → Literal (m ++ es) (decimal w f n)

/-- The front of a literal up to a place where a digit has to follow. -/
inductive Unfinished : List Char → Prop where
  | point {w} : Digits w → Unfinished (w ++ ['.'])
  | power {m w f c s} : Mantissa m w f → IsMark c → IsSign s → Unfinished (m ++ c :: s)

variable {c : Char} {cs w f m es s ds text rest rest' : List Char} {n : Int} {d : Decimal}

/-! ## Powers of ten -/

theorem Digits.isDigit_head (h : Digits ds) : ∀ c ∈ (ds ++ rest).head?, c.isDigit := by
  obtain ⟨d, ds, rfl⟩ := List.exists_cons_of_ne_nil h.1
  rintro c ⟨⟩
  exact h.2 d List.mem_cons_self

theorem IsMark.isDigit (h : IsMark c) : c.isDigit = false := by
  rcases h with rfl | rfl <;> rfl

theorem IsMark.ne_point (h : IsMark c) : c ≠ '.' := by
  rcases h with rfl | rfl <;> decide

theorem EndsAt.not_isMark (h : EndsAt c) : ¬IsMark c := by
  rintro (rfl | rfl) <;> exact absurd h.1 (by decide)

theorem isSign_sign (cs : List Char) : IsSign (sign cs).1 := by
  cases cs with
  | nil => exact .inl rfl
  | cons c cs =>
    rw [sign]
    split
    · next h => exact .inr (h.imp (fun h => by rw [h]) fun h => by rw [h])
    · exact .inl rfl

theorem sign_of_head (h : ∀ c ∈ cs.head?, c ≠ '-' ∧ c ≠ '+') : sign cs = ([], cs) := by
  cases cs with
  | nil => rfl
  | cons c cs => rw [sign, if_neg (not_or.mpr (h c rfl))]

theorem sign_append_of_ne_nil (hs : IsSign s) (h : s ≠ []) : sign (s ++ cs) = (s, cs) := by
  rcases hs with rfl | rfl | rfl
  · exact absurd rfl h
  · rfl
  · rfl

theorem sign_append_digits (hs : IsSign s) (hds : Digits ds) :
    sign (s ++ (ds ++ rest)) = (s, ds ++ rest) := by
  by_cases h : s = []
  · subst h
    refine sign_of_head fun c hc => ?_
    have hd := hds.isDigit_head c hc
    constructor <;> rintro rfl <;> exact absurd hd (by decide)
  · exact sign_append_of_ne_nil hs h

theorem power_of_head (h : ∀ c ∈ cs.head?, ¬IsMark c) : power cs = some (0, [], cs) := by
  cases cs with
  | nil => rfl
  | cons c cs =>
    rw [power]
    exact if_neg (h c rfl)

theorem power_mark (hc : IsMark c) (hs : IsSign s) (hds : Digits ds)
    (h : ∀ c ∈ rest.head?, c.isDigit = false) :
    power (c :: (s ++ (ds ++ rest))) =
      some (signed s (Nat.ofDigitChars 10 ds 0), c :: (s ++ ds), rest) := by
  have hmark : c = 'e' ∨ c = 'E' := hc
  simp only [power, if_pos hmark, sign_append_digits hs hds, takeWhile_append_rest hds.2 h,
    dropWhile_append_rest hds.2 h, if_neg hds.1, List.cons_append]

/-- What is read is a power of ten, and what comes behind it matters for its start only. -/
theorem power_some (h : power cs = some (n, es, rest)) :
    Power es n ∧ ∀ rest', StopsLike EndsAt rest rest' → power (es ++ rest') = some (n, es, rest') := by
  cases cs with
  | nil =>
    cases h
    exact ⟨.none, fun rest' hr => power_of_head (hr.head (fun _ => EndsAt.not_isMark) nofun)⟩
  | cons c cs =>
    rw [power] at h
    split at h
    · next hc =>
      dsimp only at h
      split at h
      · cases h
      · next hds =>
        cases h
        have hds : Digits ((sign cs).2.takeWhile Char.isDigit) := ⟨hds, all_takeWhile⟩
        refine ⟨.some hc (isSign_sign cs) hds, fun rest' hr => ?_⟩
        simp only [List.cons_append, List.append_assoc]
        exact power_mark hc (isSign_sign cs) hds (hr.head (fun _ => EndsAt.isDigit) head_dropWhile)
    · next hc =>
      cases h
      refine ⟨.none, fun rest' hr => power_of_head (hr.head (fun _ => EndsAt.not_isMark) ?_)⟩
      rintro c' ⟨⟩
      exact hc

/-- `c` goes on with no name and no literal, not even with one that breaks off. -/
def Separates (c : Char) : Prop := EndsAt c ∧ c ≠ '-' ∧ c ≠ '+'

theorem head_sign (h : (sign cs).1 = []) : ∀ c ∈ (sign cs).2.head?, c ≠ '-' ∧ c ≠ '+' := by
  cases cs with
  | nil => nofun
  | cons c cs =>
    rw [sign] at h ⊢
    split at h
    · cases h
    · next hc =>
      rw [if_neg hc]
      rintro c' ⟨⟩
      exact not_or.mp hc

/-- A mark without digits behind it and its sign. -/
theorem power_none (h : power cs = none) :
    ∃ c s rest, IsMark c ∧ IsSign s ∧ cs = c :: (s ++ rest) ∧
      ∀ rest', StopsLike Separates rest rest' → power (c :: (s ++ rest')) = none := by
  cases cs with
  | nil => cases h
  | cons c cs =>
    rw [power] at h
    split at h
    · next hc =>
      dsimp only at h
      split at h
      · next hds =>
        refine ⟨c, (sign cs).1, (sign cs).2, hc, isSign_sign cs, by rw [sign_append], ?_⟩
        intro rest' hr
        have hsign : sign ((sign cs).1 ++ rest') = ((sign cs).1, rest') := by
          by_cases hs : (sign cs).1 = []
          · rw [hs]
            exact sign_of_head (hr.head (fun _ h => h.2) (head_sign hs))
          · exact sign_append_of_ne_nil (isSign_sign cs) hs
        have hdigit : rest'.takeWhile Char.isDigit = [] :=
          takeWhile_eq_nil.mpr (hr.head (fun _ h => h.1.isDigit) (takeWhile_eq_nil.mp hds))
        simp only [power, if_pos hc, hsign, hdigit, if_true]
      · cases h
    · cases h

/-! ## The front of a text -/

/-- What a text begins with when it is read for a literal. -/
inductive Front : List Char → Prop where
  | absent {cs : List Char} : (∀ c ∈ cs.head?, c.isDigit = false) →
      (∀ t, cs = '.' :: t → ∀ c ∈ t.head?, c.isDigit = false) → Front cs
  | point {w rest : List Char} : Digits w → (∀ c ∈ rest.head?, c.isDigit = false) →
      Front (w ++ '.' :: rest)
  | mantissa {m w f rest : List Char} : Mantissa m w f → (∀ c ∈ rest.head?, c.isDigit = false) →
      (f = [] → ∀ c ∈ rest.head?, c ≠ '.') → Front (m ++ rest)

theorem front (cs : List Char) : Front cs := by
  have hcs := List.takeWhile_append_dropWhile (p := Char.isDigit) (l := cs)
  have hw : ∀ c ∈ cs.takeWhile Char.isDigit, c.isDigit := all_takeWhile
  have hrest : ∀ c ∈ (cs.dropWhile Char.isDigit).head?, c.isDigit = false := head_dropWhile
  generalize cs.takeWhile Char.isDigit = w at hcs hw
  generalize cs.dropWhile Char.isDigit = rest at hcs hrest
  subst hcs
  by_cases hpoint : ∃ tail, rest = '.' :: tail
  · obtain ⟨tail, rfl⟩ := hpoint
    have htail := List.takeWhile_append_dropWhile (p := Char.isDigit) (l := tail)
    by_cases hf : tail.takeWhile Char.isDigit = []
    · by_cases hne : w = []
      · subst hne
        refine .absent hrest ?_
        rintro t ⟨⟩
        exact takeWhile_eq_nil.mp hf
      · exact .point ⟨hne, hw⟩ (takeWhile_eq_nil.mp hf)
    · have hrest : ∀ c ∈ (tail.dropWhile Char.isDigit).head?, c.isDigit = false := head_dropWhile
      have hfront := Front.mantissa (.point hw ⟨hf, all_takeWhile⟩) hrest fun h => absurd h hf
      rwa [List.append_assoc, List.cons_append, htail] at hfront
  · have hne : ∀ c ∈ rest.head?, c ≠ '.' := by
      rintro c hc rfl
      exact hpoint (List.head?_eq_some_iff.mp hc)
    by_cases hw' : w = []
    · subst hw'
      refine .absent hrest ?_
      rintro t rfl
      exact absurd rfl (hne '.' rfl)
    · exact .mantissa (.whole ⟨hw', hw⟩) hrest fun _ => hne

theorem scan_eq_absent (h : ∀ c ∈ cs.head?, c.isDigit = false)
    (hp : ∀ t, cs = '.' :: t → ∀ c ∈ t.head?, c.isDigit = false) : scan cs = .absent := by
  have hw : cs.takeWhile Char.isDigit = [] := takeWhile_eq_nil.mpr h
  have hrest : cs.dropWhile Char.isDigit = cs := by
    have := List.takeWhile_append_dropWhile (p := Char.isDigit) (l := cs)
    rwa [hw, List.nil_append] at this
  simp only [scan, hw, hrest]
  split
  · rw [if_neg (not_not_intro (takeWhile_eq_nil.mpr (hp _ rfl)))]
    rfl
  · rfl

theorem scan_absent (hd : c.isDigit = false) (hp : c ≠ '.') : scan (c :: cs) = .absent := by
  refine scan_eq_absent ?_ fun t ht => absurd (List.cons.inj ht).1 hp
  rintro d ⟨⟩
  exact hd

theorem scan_point_end (hw : Digits w) (h : ∀ c ∈ rest.head?, c.isDigit = false) :
    scan (w ++ '.' :: rest) = .broken := by
  have hpoint : ∀ c ∈ ('.' :: rest).head?, c.isDigit = false := by
    rintro c ⟨⟩
    rfl
  simp only [scan, takeWhile_append_rest hw.2 hpoint, dropWhile_append_rest hw.2 hpoint,
    takeWhile_eq_nil.mpr h, if_neg hw.1]
  rfl

/-- Behind the digits an optional power of ten is read. -/
theorem scan_mantissa (hm : Mantissa m w f) (h : ∀ c ∈ rest.head?, c.isDigit = false)
    (hp : f = [] → ∀ c ∈ rest.head?, c ≠ '.') :
    scan (m ++ rest) =
      match power rest with
      | some (n, es, rest) => .literal (decimal w f n) (m ++ es) rest
      | none => .broken := by
  cases hm with
  | whole hw =>
    simp only [scan, takeWhile_append_rest hw.2 h, dropWhile_append_rest hw.2 h]
    split
    · exact absurd rfl (hp rfl '.' rfl)
    · cases hpower : power rest <;> simp [hw.1, Scan.ofDigits, hpower]
  | point hw hf =>
    have hpoint : ∀ c ∈ ('.' :: (f ++ rest)).head?, c.isDigit = false := by
      rintro c ⟨⟩
      rfl
    rw [List.append_assoc, List.cons_append]
    simp only [scan, takeWhile_append_rest hw hpoint, dropWhile_append_rest hw hpoint,
      takeWhile_append_rest hf.2 h, dropWhile_append_rest hf.2 h]
    cases hpower : power rest <;> simp [hf.1, Scan.ofDigits, hpower]

/-! ## Scanning -/

theorem of_scan_absent (h : scan cs = .absent) : (∀ c ∈ cs.head?, c.isDigit = false) ∧
    ∀ t, cs = '.' :: t → ∀ c ∈ t.head?, c.isDigit = false := by
  cases front cs with
  | absent hd hp => exact ⟨hd, hp⟩
  | point hw hd => rw [scan_point_end hw hd] at h; cases h
  | mantissa hm hd hp =>
    rw [scan_mantissa hm hd hp] at h
    split at h <;> cases h

/-- What is scanned is a literal, and what comes behind it matters for its start only. -/
theorem scan_literal (h : scan cs = .literal d text rest) :
    Literal text d ∧
      ∀ rest', StopsLike EndsAt rest rest' → scan (text ++ rest') = .literal d text rest' := by
  cases front cs with
  | absent hd hp => rw [scan_eq_absent hd hp] at h; cases h
  | point hw hd => rw [scan_point_end hw hd] at h; cases h
  | @mantissa m w f tail hm hd hp =>
    rw [scan_mantissa hm hd hp] at h
    split at h
    · next n es rest hpow =>
      cases h
      obtain ⟨hes, hcut⟩ := power_some hpow
      rw [← power_append hpow] at hd hp
      refine ⟨.mk hm hes, fun rest' hr => ?_⟩
      have hd' := (hr.append es).head (fun _ => EndsAt.isDigit) hd
      have hp' := fun hf => (hr.append es).head (fun _ h => h.2) (hp hf)
      rw [List.append_assoc, scan_mantissa hm hd' hp', hcut rest' hr]
    · cases h

/-- A number that breaks off does so whatever comes behind it, but for its start. -/
theorem scan_broken (h : scan cs = .broken) :
    ∃ p rest, Unfinished p ∧ cs = p ++ rest ∧
      ∀ rest', StopsLike Separates rest rest' → scan (p ++ rest') = .broken := by
  cases front cs with
  | absent hd hp => rw [scan_eq_absent hd hp] at h; cases h
  | @point w rest hw hd =>
    refine ⟨w ++ ['.'], rest, .point hw, by rw [List.append_assoc]; rfl, fun rest' hr => ?_⟩
    rw [List.append_assoc]
    exact scan_point_end hw (hr.head (fun _ h => h.1.isDigit) hd)
  | @mantissa m w f tail hm hd hp =>
    rw [scan_mantissa hm hd hp] at h
    split at h
    · cases h
    · next hpow =>
      obtain ⟨c, s, rest, hc, hs, rfl, hcut⟩ := power_none hpow
      refine ⟨m ++ c :: s, rest, .power hm hc hs, by rw [List.append_assoc]; rfl, fun rest' hr => ?_⟩
      have hd' : ∀ c' ∈ (c :: (s ++ rest')).head?, c'.isDigit = false := hd
      have hp' : f = [] → ∀ c' ∈ (c :: (s ++ rest')).head?, c' ≠ '.' := hp
      rw [List.append_assoc, List.cons_append, scan_mantissa hm hd' hp', hcut rest' hr]

/-- A literal is scanned to its end. -/
theorem Literal.scan (h : Literal text d) : scan text = .literal d text [] := by
  obtain ⟨hm, hes⟩ := h
  cases hes with
  | none =>
    have hnil : ∀ c ∈ ([] : List Char).head?, c.isDigit = false ∧ c ≠ '.' := nofun
    rw [scan_mantissa hm (fun c hc => (hnil c hc).1) fun _ c hc => (hnil c hc).2]
    rfl
  | @some c s ds hc hs hds =>
    have hpow : power (c :: (s ++ (ds ++ []))) = _ := power_mark hc hs hds nofun
    rw [List.append_nil] at hpow
    rw [scan_mantissa hm (by rintro _ ⟨⟩; exact hc.isDigit) (by rintro - _ ⟨⟩; exact hc.ne_point),
      hpow]

/-- No literal at the front of a text is longer than the one that is scanned. -/
theorem Literal.length_le {text' : List Char} {d' : Decimal} (h' : Literal text' d')
    (h : Numeral.scan cs = .literal d text rest) (hp : text' <+: cs) :
    text'.length ≤ text.length := by
  rw [← scan_append h] at hp
  refine Nat.le_of_not_lt fun hlt => ?_
  obtain ⟨more, rfl⟩ : text <+: text' := List.prefix_of_prefix_length_le (List.prefix_append _ _) hp
    (Nat.le_of_lt hlt)
  have hscan := (scan_literal h).2 more (.of_isPrefix ((List.prefix_append_right_inj _).mp hp))
  rw [h'.scan, Scan.literal.injEq] at hscan
  rw [← hscan.2.2, List.append_nil] at hlt
  exact absurd hlt (Nat.lt_irrefl _)

/-- A number that breaks off at the front of a text: it is no front of a literal there. -/
def Broken (cs : List Char) : Prop :=
  ∃ p, Unfinished p ∧ p <+: cs ∧ ∀ text d, Literal text d → text <+: cs → ¬p <+: text

theorem broken_of_scan (h : scan cs = .broken) : Broken cs := by
  obtain ⟨p, rest, hp, rfl, hcut⟩ := scan_broken h
  refine ⟨p, hp, List.prefix_append _ _, fun text d ht hcs hpt => ?_⟩
  obtain ⟨more, rfl⟩ := hpt
  have hscan := hcut more (.of_isPrefix ((List.prefix_append_right_inj _).mp hcs))
  rw [ht.scan] at hscan
  cases hscan

end Numeral
end CurvePlot
