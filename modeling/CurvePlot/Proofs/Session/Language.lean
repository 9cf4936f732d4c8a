import CurvePlot.Proofs.Except
import CurvePlot.Session.Command

/-! The language of commands.

`Command.Says` lists the lines of words that are commands, each with what it says. A line is taken word by
word: what is taken from the front says the command (`says_of_takeCommand`), so that a line is a command
if nothing is left of it (`ofText_eq_ok`). -/

namespace CurvePlot

namespace Text

/-- The words of a text are the parts between white space that are not empty. -/
theorem words_eq_splitOnP (cs : List Char) : words cs = (cs.splitOnP isSpace).filter (· ≠ []) := by
  fun_induction words cs with
  | case1 => rfl
  | case2 c cs hc ih =>
    rw [ih, List.splitOnP_cons_eq_if_modifyHead, if_pos hc]
    rfl
  | case3 c hc c' cs word rest hc' hwords ih =>
    -- the next word begins behind the white space, which ends the part of `c`
    rw [List.splitOnP_cons_eq_if_modifyHead, if_pos hc'] at ih
    rw [List.splitOnP_cons_eq_if_modifyHead, if_neg hc, List.splitOnP_cons_eq_if_modifyHead, if_pos hc']
    simp only [hwords, if_pos hc']
    exact congrArg ([c] :: ·) (hwords.symm.trans ih)
  | case4 c hc c' cs word rest hc' hwords ih =>
    obtain ⟨part, parts, hparts⟩ := List.exists_cons_of_ne_nil (List.splitOnP_ne_nil isSpace cs)
    rw [List.splitOnP_cons_eq_if_modifyHead, if_neg hc', hparts, hwords] at ih
    rw [List.splitOnP_cons_eq_if_modifyHead, if_neg hc, List.splitOnP_cons_eq_if_modifyHead, if_neg hc',
      hparts]
    simp only [hwords, if_neg hc']
    cases ih
    rfl
  | case5 c cs hc hlast ih =>
    obtain ⟨part, parts, hparts⟩ := List.exists_cons_of_ne_nil (List.splitOnP_ne_nil isSpace cs)
    have hnil : words cs = [] := by
      cases cs with
      | nil => rfl
      | cons c' cs =>
        cases hwords : words (c' :: cs) with
        | nil => rfl
        | cons word rest => exact (hlast _ _ _ _ rfl hwords).elim
    rw [hparts, hnil] at ih
    rw [List.splitOnP_cons_eq_if_modifyHead, if_neg hc, hparts, hnil]
    -- nothing but white space is behind `c`
    cases part with
    | nil => cases cs <;> exact congrArg ([c] :: ·) ih
    | cons c' part => cases ih

end Text

namespace Command

variable {words rest : List String} {cs : List Char} {i : Nat} {v : Float} {c : Command} {w : Window}
  {line : String}

/-- The words that are a command, and which one. Curves are counted from one in the words. -/
inductive Says : List String → Command → Prop where
  | range {left right w} : Numeral.readFloat left = some w.left → w.left.isFinite = true →
      Numeral.readFloat right = some w.right → w.right.isFinite = true → w.left < w.right →
      Says ["range", left, right] (.range w)
  | hide {number i} : Numeral.readNat maxNumber number = some (i + 1) → Says ["hide", number] (.hide i)
  | unhide {number i} : Numeral.readNat maxNumber number = some (i + 1) →
      Says ["show", number] (.unhide i)
  | clear : Says ["hl"] (.highlight none)
  | highlight {number i} : Numeral.readNat maxNumber number = some (i + 1) →
      Says ["hl", number] (.highlight (some i))
  | quit : Says ["quit"] .quit
  | q : Says ["q"] .quit

/-! ## Arguments -/

theorem takeIndex_eq_ok :
    takeIndex words = .ok (i, rest) ↔
      ∃ number, words = number :: rest ∧ Numeral.readNat maxNumber number = some (i + 1) := by
  cases words with
  | nil => exact ⟨nofun, nofun⟩
  | cons word words =>
    rw [takeIndex]
    constructor
    · intro h
      split at h
      · next hread =>
        cases h
        exact ⟨word, rfl, hread⟩
      · cases h
    · rintro ⟨number, ⟨⟩, hread⟩
      rw [hread]

theorem takeBound_eq_ok :
    takeBound words = .ok (v, rest) ↔
      ∃ bound, words = bound :: rest ∧ Numeral.readFloat bound = some v ∧ v.isFinite = true := by
  cases words with
  | nil => exact ⟨nofun, nofun⟩
  | cons word words =>
    rw [takeBound]
    constructor
    · intro h
      split at h
      · next hread =>
        cases h
        exact ⟨word, rfl, Option.filter_eq_some_iff.mp hread⟩
      · cases h
    · rintro ⟨bound, ⟨⟩, hread⟩
      rw [Option.filter_eq_some_iff.mpr hread]

theorem takeWindow_eq_ok :
    takeWindow words = .ok (w, rest) ↔
      ∃ left right, words = left :: right :: rest ∧ Numeral.readFloat left = some w.left ∧
        w.left.isFinite = true ∧ Numeral.readFloat right = some w.right ∧ w.right.isFinite = true ∧
          w.left < w.right := by
  constructor
  · intro h
    obtain ⟨⟨a, words₁⟩, ha, h⟩ := Except.bind_eq_ok.mp h
    obtain ⟨⟨b, words₂⟩, hb, h⟩ := Except.bind_eq_ok.mp h
    obtain ⟨⟨⟩, hcheck, ⟨⟩⟩ := Except.bind_eq_ok.mp h
    obtain ⟨left, rfl, hleft, hfinite⟩ := takeBound_eq_ok.mp ha
    obtain ⟨right, rfl, hright, hfinite'⟩ := takeBound_eq_ok.mp hb
    obtain ⟨-, -, hlt⟩ := Window.check_eq_ok.mp (Except.mapError_eq_ok.mp hcheck)
    exact ⟨left, right, rfl, hleft, hfinite, hright, hfinite', hlt⟩
  · rintro ⟨left, right, rfl, hleft, hfinite, hright, hfinite', hlt⟩
    have hcheck : w.check = .ok () := Window.check_eq_ok.mpr ⟨hfinite, hfinite', hlt⟩
    refine Except.bind_eq_ok.mpr ⟨_, takeBound_eq_ok.mpr ⟨left, rfl, hleft, hfinite⟩, ?_⟩
    refine Except.bind_eq_ok.mpr ⟨_, takeBound_eq_ok.mpr ⟨right, rfl, hright, hfinite'⟩, ?_⟩
    exact Except.bind_eq_ok.mpr ⟨(), Except.mapError_eq_ok.mpr hcheck, rfl⟩

/-! ## Commands -/

/-- What is taken from the front of some words says the command. -/
theorem says_of_takeCommand (h : takeCommand words = .ok (c, rest)) :
    ∃ front, words = front ++ rest ∧ Says front c := by
  unfold takeCommand at h
  split at h
  · cases h
  · obtain ⟨⟨w, words⟩, hwindow, ⟨⟩⟩ := Except.bind_eq_ok.mp h
    obtain ⟨left, right, rfl, hleft, hfinite, hright, hfinite', hlt⟩ := takeWindow_eq_ok.mp hwindow
    exact ⟨_, rfl, .range hleft hfinite hright hfinite' hlt⟩
  · obtain ⟨⟨i, words⟩, hindex, ⟨⟩⟩ := Except.bind_eq_ok.mp h
    obtain ⟨number, rfl, hread⟩ := takeIndex_eq_ok.mp hindex
    exact ⟨_, rfl, .hide hread⟩
  · obtain ⟨⟨i, words⟩, hindex, ⟨⟩⟩ := Except.bind_eq_ok.mp h
    obtain ⟨number, rfl, hread⟩ := takeIndex_eq_ok.mp hindex
    exact ⟨_, rfl, .unhide hread⟩
  · cases h
    exact ⟨_, rfl, .clear⟩
  · obtain ⟨⟨i, words⟩, hindex, ⟨⟩⟩ := Except.bind_eq_ok.mp h
    obtain ⟨number, rfl, hread⟩ := takeIndex_eq_ok.mp hindex
    exact ⟨_, rfl, .highlight hread⟩
  · cases h
    exact ⟨_, rfl, .quit⟩
  · cases h
    exact ⟨_, rfl, .q⟩
  · cases h

theorem takeCommand_of_says (h : Says words c) : takeCommand words = .ok (c, []) := by
  cases h with
  | range hleft hfinite hright hfinite' hlt =>
    exact Except.bind_eq_ok.mpr
      ⟨_, takeWindow_eq_ok.mpr ⟨_, _, rfl, hleft, hfinite, hright, hfinite', hlt⟩, rfl⟩
  | hide hread | unhide hread | highlight hread =>
    exact Except.bind_eq_ok.mpr ⟨_, takeIndex_eq_ok.mpr ⟨_, rfl, hread⟩, rfl⟩
  | clear | quit | q => rfl

/-- A text is a command if all of its words are taken. -/
theorem ofText_eq_ok : ofText cs = .ok c ↔ Says ((Text.words cs).map String.ofList) c := by
  constructor
  · intro h
    obtain ⟨⟨command, words⟩, hcommand, h⟩ := Except.bind_eq_ok.mp h
    dsimp only at h
    split at h
    · next hwords =>
      cases h
      obtain ⟨front, hfront, hsays⟩ := says_of_takeCommand hcommand
      rw [List.isEmpty_iff.mp hwords, List.append_nil] at hfront
      exact hfront ▸ hsays
    · cases h
  · intro h
    exact Except.bind_eq_ok.mpr ⟨_, takeCommand_of_says h, rfl⟩

/-- **A line is a command exactly if its words say one.** A line without a colon in front, but for white
space, is no command at all. Of the others, those whose words say a command are that command, and all
the rest have an error. -/
theorem parse?_language (line : String) :
    (parse? line = none ↔ (Text.trim line.toList).head? ≠ some ':') ∧
      ∀ cs, Text.trim line.toList = ':' :: cs →
        let words := ((cs.splitOnP Text.isSpace).filter (· ≠ [])).map String.ofList
        (∀ c, parse? line = some (.ok c) ↔ Says words c) ∧
          ((∃ e, parse? line = some (.error e)) ↔ ∀ c, ¬Says words c) := by
  constructor
  · rw [parse?]
    split
    · next cs htrim => simp [htrim]
    · next hother =>
      refine iff_of_true rfl fun hhead => ?_
      obtain ⟨cs, htrim⟩ := List.head?_eq_some_iff.mp hhead
      exact hother cs htrim
  · intro cs htrim words
    have hparse : parse? line = some (ofText cs) := by
      rw [parse?, htrim]
      rfl
    have hok (c : Command) : parse? line = some (.ok c) ↔ Says words c := by
      rw [hparse, Option.some_inj, ofText_eq_ok, Text.words_eq_splitOnP]
    refine ⟨hok, ?_⟩
    simp only [← hok, hparse, Option.some_inj]
    cases ofText cs with
    | ok c => exact ⟨nofun, fun h => absurd rfl (h c)⟩
    | error e => exact iff_of_true ⟨e, rfl⟩ nofun

/-- A window behind white space of several kinds, and a word too many. -/
theorem parse?_language_range :
    let line := "\t:range\u2003-1 +2.5\r"
    Text.trim line.toList = ':' :: "range\u2003-1 +2.5".toList ∧
      parse? line = some (.ok (.range ⟨-1, 2.5⟩)) ∧
      Text.trim ":show 1 2".toList = ':' :: "show 1 2".toList ∧
      ∃ e, parse? ":show 1 2" = some (.error e) := by
  intro line
  have htrim : Text.trim line.toList = ':' :: "range\u2003-1 +2.5".toList := by decide +kernel
  have htrim' : Text.trim ":show 1 2".toList = ':' :: "show 1 2".toList := by decide +kernel
  refine ⟨htrim, (((parse?_language line).2 _ htrim).1 _).mpr ?_, htrim',
    ((parse?_language ":show 1 2").2 _ htrim').2.mpr ?_⟩
  · have hwords : (("range\u2003-1 +2.5".toList.splitOnP Text.isSpace).filter (· ≠ [])).map String.ofList =
        ["range", "-1", "+2.5"] := by decide +kernel
    rw [hwords]
    exact .range (by decide +kernel) (by decide +kernel) (by decide +kernel) (by decide +kernel)
      (by decide +kernel)
  · have hwords : (("show 1 2".toList.splitOnP Text.isSpace).filter (· ≠ [])).map String.ofList =
        ["show", "1", "2"] := by decide +kernel
    rw [hwords]
    intro c hsays
    generalize hshow : ["show", "1", "2"] = words at hsays
    cases hsays <;> simp at hshow

end Command

end CurvePlot
