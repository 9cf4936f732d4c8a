import Mathlib.Data.List.TakeWhile
import CurvePlot.Proofs.Except
import CurvePlot.Proofs.Session.History

/-! What lines cannot do to a session.

The window can be plotted after any lines if it could be before (`check_after`). `Checked` is the session
with the numbers of machine words and with indices that have to exist, where a step that goes wrong is
a `Fault`. No line leads to one: the checked session answers like the plain one (`Checked.reply_eq`). -/

namespace CurvePlot

/-! ## A session of machine words -/

/-- What ends a program at once. -/
inductive Fault where
  | overflow
  | outOfBounds
deriving DecidableEq, Repr

namespace Checked

open Session

/-- The number before `n`. -/
def pred (n : Nat) : Except Fault Nat := if 0 < n then .ok (n - 1) else .error .overflow

/-- The number behind `n`, which has to fit into a word. -/
def succ (n : Nat) : Except Fault Nat :=
  if n < Command.maxNumber then .ok (n + 1) else .error .overflow

/-- Changes the curve at `i`. -/
def modify (curves : List Curve) (i : Nat) (f : Curve → Curve) : Except Fault (List Curve) :=
  if i < curves.length then .ok (curves.modify i f) else .error .outOfBounds

/-- A computation without any step that can go wrong. -/
def safe {ε α : Type} (x : Except ε α) : ExceptT ε (Except Fault) α := .mk (.ok x)

/-- `Command.takeIndex`, which counts a positive number down by one. -/
def takeIndex : List String → ExceptT CommandError (Except Fault) (Nat × List String)
  | [] => throw .missingNumber
  | word :: words =>
    match Numeral.readNat Command.maxNumber word with
    | some n => if 0 < n then do return (← pred n, words) else throw (.badNumber word)
    | none => throw (.badNumber word)

/-- `Command.takeCommand`, with the checked index of a curve. -/
def takeCommand : List String → ExceptT CommandError (Except Fault) (Command × List String)
  | "hide" :: words => do
    let (index, words) ← takeIndex words
    return (.hide index, words)
  | "show" :: words => do
    let (index, words) ← takeIndex words
    return (.unhide index, words)
  | ["hl"] => return (.highlight none, [])
  | "hl" :: words => do
    let (index, words) ← takeIndex words
    return (.highlight (some index), words)
  | words => safe (Command.takeCommand words)

/-- `Command.ofText`. -/
def ofText (cs : List Char) : ExceptT CommandError (Except Fault) Command := do
  let (command, words) ← takeCommand ((Text.words cs).map String.ofList)
  if words.isEmpty then return command
  else throw (.tooManyArguments (String.ofList (Text.trim cs)))

/-- `SessionError.message`, where the curve is counted from one. -/
def message : SessionError → Except Fault String
  | .noFunction index count => do
    return "no function " ++ (← succ index).repr ++ " (have " ++ count.repr ++ ")"

/-- The index of one of `count` curves, or the error, whose message is written at once. -/
def index (count i : Nat) : ExceptT SessionError (Except Fault) Nat :=
  if i < count then return i
  else do
    let error := SessionError.noFunction i count
    let _message ← message error
    throw error

/-- `Session.change`, which finds the curve by its index. -/
def change (s : Session) (i : Nat) (f : Curve → Curve) :
    ExceptT SessionError (Except Fault) Session := do
  let curves ← modify s.curves (← index s.curves.length i) f
  return { s with curves }

/-- `Session.apply`. -/
def apply (s : Session) : Command → ExceptT SessionError (Except Fault) (Option Session)
  | .hide i => some <$> change s i fun c => { c with hidden := true }
  | .unhide i => some <$> change s i fun c => { c with hidden := false }
  | .highlight (some i) => do
    let i ← index s.curves.length i
    return some { s with curves := Curve.highlightOnly (some i) s.curves }
  | c => safe (s.apply c)

/-- `Command.parse?`. -/
def parse? (line : String) : Option (ExceptT CommandError (Except Fault) Command) :=
  match Text.trim line.toList with
  | ':' :: cs => some (ofText cs)
  | _ => none

/-- What a session does with a command. -/
def answer (s : Session) (c : Command) : Except Fault Reply := do
  match ← (apply s c).run with
  | .ok (some s) => return .changed s
  | .ok none => return .quit
  | .error e => return .refused e

/-- `Session.reply`. -/
def reply (s : Session) (line : String) : Except Fault Reply :=
  if line.toList.all Text.isSpace then return .nothing
  else
    match parse? line with
    | some read => do
      match ← read.run with
      | .ok command => answer s command
      | .error e => return .badCommand e
    | none =>
      match s.load line with
      | .ok s => return .changed s
      | .error e => return .badSeries e

/-- `Session.after`. -/
def after (s : Session) : List String → Except Fault Session
  | [] => return s
  | line :: lines => do
    match ← reply s line with
    | .quit => return s
    | .changed s' => after s' lines
    | _ => after s lines

end Checked

namespace Command

variable {words rest : List String} {cs : List Char} {s : String} {i n : Nat} {c : Command}
  {w : Window} {line : String}

/-! ## What commands say -/

theorem readNat_le {max : Nat} (h : Numeral.readNat max s = some n) : n ≤ max := by
  obtain ⟨hbound, hn⟩ := Option.ite_none_left_eq_some.mp h
  rw [not_or, not_or, Nat.not_lt] at hbound
  exact Option.some.inj hn ▸ hbound.2.2

/-- No number of a curve is too large to be counted from one. -/
theorem lt_of_takeIndex (h : takeIndex words = .ok (i, rest)) : i < maxNumber := by
  cases words with
  | nil => cases h
  | cons word words =>
    rw [takeIndex] at h
    split at h
    · next hread =>
      cases h
      exact readNat_le hread
    · cases h

theorem check_of_takeWindow (h : takeWindow words = .ok (w, rest)) : w.check = .ok () := by
  obtain ⟨⟨left, words⟩, -, h⟩ := Except.bind_eq_ok.mp h
  obtain ⟨⟨right, words⟩, -, h⟩ := Except.bind_eq_ok.mp h
  obtain ⟨⟨⟩, hcheck, ⟨⟩⟩ := Except.bind_eq_ok.mp h
  exact Except.mapError_eq_ok.mp hcheck

/-- The number of a curve fits into a word, and a window can be plotted. -/
def Sound : Command → Prop
  | .range w => w.check = .ok ()
  | .hide i | .unhide i | .highlight (some i) => i < maxNumber
  | .highlight none | .quit => True

theorem sound_of_takeCommand (h : takeCommand words = .ok (c, rest)) : c.Sound := by
  unfold takeCommand at h
  split at h
  · cases h
  · obtain ⟨⟨w, words⟩, hwindow, ⟨⟩⟩ := Except.bind_eq_ok.mp h
    exact check_of_takeWindow hwindow
  · obtain ⟨⟨i, words⟩, hindex, ⟨⟩⟩ := Except.bind_eq_ok.mp h
    exact lt_of_takeIndex hindex
  · obtain ⟨⟨i, words⟩, hindex, ⟨⟩⟩ := Except.bind_eq_ok.mp h
    exact lt_of_takeIndex hindex
  · cases h
    trivial
  · obtain ⟨⟨i, words⟩, hindex, ⟨⟩⟩ := Except.bind_eq_ok.mp h
    exact lt_of_takeIndex hindex
  · cases h
    trivial
  · cases h
    trivial
  · cases h

theorem sound_of_ofText (h : ofText cs = .ok c) : c.Sound := by
  obtain ⟨⟨command, words⟩, hcommand, h⟩ := Except.bind_eq_ok.mp h
  dsimp only at h
  split at h
  · cases h
    exact sound_of_takeCommand hcommand
  · cases h

theorem sound_of_parse? (h : parse? line = some (.ok c)) : c.Sound := by
  rw [parse?] at h
  split at h
  · exact sound_of_ofText (Option.some.inj h)
  · cases h

end Command

/-! ## No faults -/

namespace Checked

open Session

theorem safe_bind {ε α β : Type} (x : Except ε α) (f : α → Except ε β) :
    (safe x >>= fun a => safe (f a)) = safe (x >>= f) := by
  cases x <;> rfl

theorem takeIndex_eq (words : List String) : takeIndex words = safe (Command.takeIndex words) := by
  cases words with
  | nil => rfl
  | cons word words =>
    rw [takeIndex, Command.takeIndex]
    cases Numeral.readNat Command.maxNumber word with
    | none => rfl
    | some n => cases n <;> rfl

theorem takeCommand_eq (words : List String) :
    takeCommand words = safe (Command.takeCommand words) := by
  unfold takeCommand
  split
  · rw [takeIndex_eq]
    exact safe_bind _ _
  · rw [takeIndex_eq]
    exact safe_bind _ _
  · rfl
  · rw [takeIndex_eq, Command.takeCommand]
    · exact safe_bind _ _
    · assumption
  · rfl

theorem ofText_eq (cs : List Char) : ofText cs = safe (Command.ofText cs) := by
  rw [ofText, takeCommand_eq, Command.ofText, ← safe_bind]
  refine bind_congr fun ⟨command, words⟩ => ?_
  dsimp only
  split <;> rfl

variable {i count : Nat}

theorem message_eq (h : i < Command.maxNumber) (count : Nat) :
    message (.noFunction i count) = .ok (SessionError.noFunction i count).message := by
  simp only [message, succ, if_pos h]
  rfl

theorem index_eq (h : i < Command.maxNumber) (count : Nat) :
    index count i = safe (if i < count then .ok i else .error (.noFunction i count)) := by
  rw [index]
  split
  · rfl
  · simp only [message_eq h]
    rfl

theorem change_eq (s : Session) (h : i < Command.maxNumber) (f : Curve → Curve) :
    change s i f = safe (s.change i f) := by
  rw [change, Session.change, index_eq h]
  split
  · next hi =>
    have hmodify : modify s.curves i f = .ok (s.curves.modify i f) := if_pos hi
    have hlift : (liftM (modify s.curves i f) : ExceptT SessionError (Except Fault) (List Curve)) =
        safe (.ok (s.curves.modify i f)) := by rw [hmodify]; rfl
    exact congrArg (· >>= fun curves => pure { s with curves }) hlift
  · rfl

theorem apply_eq (s : Session) {c : Command} (h : c.Sound) : apply s c = safe (s.apply c) := by
  match c, h with
  | .range _, _ | .highlight none, _ | .quit, _ => rfl
  | .hide i, h | .unhide i, h =>
    rw [apply, Session.apply, change_eq s h]
    cases s.change i _ <;> rfl
  | .highlight (some i), h =>
    rw [apply, Session.apply, index_eq h]
    split <;> rfl

theorem parse?_eq (line : String) : parse? line = (Command.parse? line).map safe := by
  fun_cases Command.parse? line with
  | case1 cs hcs =>
    rw [parse?, hcs]
    exact congrArg some (ofText_eq cs)
  | case2 hcs =>
    rw [parse?]
    split
    · next cs h => exact absurd h (hcs cs)
    · rfl

theorem answer_eq (s : Session) {c : Command} (h : c.Sound) :
    answer s c = .ok (match s.apply c with
      | .ok (some s) => .changed s
      | .ok none => .quit
      | .error e => .refused e) := by
  rw [answer, apply_eq s h]
  match s.apply c with
  | .ok (some _) | .ok none | .error _ => rfl

/-- A command about a curve whose number does not fit into a word ends the program. Only commands
that were read are safe. -/
theorem apply_maxNumber (s : Session) (h : s.curves.length ≤ Command.maxNumber) :
    apply s (.hide Command.maxNumber) = .mk (.error .overflow) := by
  rw [apply, change, index, if_neg (Nat.not_lt_of_le h)]
  rfl

/-- The checked session answers every line, and like the plain one. -/
theorem reply_eq (s : Session) (line : String) : reply s line = .ok (s.reply line) := by
  rw [reply, Session.reply, parse?_eq]
  split
  · rfl
  · cases hparse : Command.parse? line with
    | none => cases s.load line <;> rfl
    | some read =>
      cases read with
      | error e => rfl
      | ok c => exact answer_eq s (Command.sound_of_parse? hparse)

theorem after_eq (s : Session) (lines : List String) : after s lines = .ok (s.after lines) := by
  induction lines generalizing s with
  | nil => rfl
  | cons line lines ih =>
    rw [after, reply_eq, Session.after, next]
    cases s.reply line with
    | quit => rfl
    | changed s' => exact ih s'
    | nothing => exact ih s
    | badCommand => exact ih s
    | refused => exact ih s
    | badSeries => exact ih s

end Checked

/-! ## The window -/

namespace Session

variable {s s' : Session} {line : String} {lines : List String} {g : Glyph} {n : Nat} {c : Command}

theorem sound_of_accepted (h : Event.accepted? g n line = some (.command c)) : c.Sound := by
  obtain ⟨hline, -⟩ := Option.filter_eq_some_iff.mp h
  rw [Event.ofLine?] at hline
  split at hline
  · cases hline
  · split at hline
    · next hparse =>
      cases hline
      exact Command.sound_of_parse? hparse
    · cases hline
    · split at hline <;> cases hline

/-- A line leaves a window that can be plotted. -/
theorem check_next (hs : s.window.check = .ok ()) (h : s.next line = some s') :
    s'.window.check = .ok () := by
  rw [next_eq] at h
  split at h
  · cases h
    exact hs
  · cases h
  · next e _ haccept =>
    cases h
    match e, haccept with
    | .load _, _ => exact hs
    | .command (.range _), haccept => exact sound_of_accepted haccept
    | .command (.hide _), _ | .command (.unhide _), _ | .command (.highlight _), _
    | .command .quit, _ => exact hs

theorem check_after (hs : s.window.check = .ok ()) (lines : List String) :
    (s.after lines).window.check = .ok () := by
  induction lines generalizing s with
  | nil => exact hs
  | cons line lines ih =>
    rw [after]
    split
    · exact hs
    · next hnext => exact ih (check_next hs hnext)

/-! ## Commands about a curve -/

/-- The line is a command about the curve with the number `n`. -/
def Numbered (line : String) (n : Nat) : Prop :=
  ∃ cs name word, Text.trim line.toList = ':' :: cs ∧
    (Text.words cs).map String.ofList = [name, word] ∧ name ∈ ["hide", "show", "hl"] ∧
      Numeral.readNat Command.maxNumber word = some n ∧ 0 < n

theorem Numbered.parse? {i : Nat} (h : Numbered line (i + 1)) :
    ∃ c, Command.parse? line = some (.ok c) ∧
      (c = .hide i ∨ c = .unhide i ∨ c = .highlight (some i)) := by
  obtain ⟨cs, name, word, htrim, hwords, hname, hread, -⟩ := h
  have hindex : Command.takeIndex [word] = .ok (i, []) := by rw [Command.takeIndex, hread]
  have hparse : Command.parse? line = some (Command.ofText cs) := by rw [Command.parse?, htrim]; rfl
  rw [hparse, Command.ofText, hwords]
  simp only [List.mem_cons, List.not_mem_nil, or_false] at hname
  rcases hname with rfl | rfl | rfl <;> simp only [Command.takeCommand, hindex]
  · exact ⟨_, rfl, .inl rfl⟩
  · exact ⟨_, rfl, .inr (.inl rfl)⟩
  · exact ⟨_, rfl, .inr (.inr rfl)⟩

theorem Numbered.not_blank (h : Numbered line n) : ¬line.toList.all Text.isSpace = true := by
  obtain ⟨cs, name, word, htrim, -⟩ := h
  intro hblank
  have hdrop : line.toList.dropWhile Text.isSpace = [] :=
    List.dropWhile_eq_nil_iff.mpr (List.all_eq_true.mp hblank)
  rw [Text.trim, hdrop] at htrim
  cases htrim

/-- A command about a curve is carried out if there is the curve, and refused else. -/
theorem Numbered.reply {i : Nat} (h : Numbered line (i + 1)) (s : Session) :
    (i < s.curves.length → ∃ s', s.reply line = .changed s') ∧
      (s.curves.length ≤ i → s.reply line = .refused (.noFunction i s.curves.length)) := by
  obtain ⟨c, hparse, hc⟩ := h.parse?
  rw [Session.reply, if_neg h.not_blank, hparse]
  constructor
  · intro hi
    rcases hc with rfl | rfl | rfl <;> simp only [apply, change, if_pos hi] <;> exact ⟨_, rfl⟩
  · intro hi
    have hi' := Nat.not_lt_of_le hi
    rcases hc with rfl | rfl | rfl <;> simp only [apply, change, if_neg hi'] <;> rfl

/-- **No line leads out of the safe states.** If the window of a session can be plotted, it can be
plotted after any lines. None of them makes a number leave the range of a word or a curve be looked for
where there is none. A command to hide the `n`-th curve, to show it or to make it stand out is refused
if there are fewer curves, and carried out else. -/
theorem after_safe (hs : s.window.check = .ok ()) (lines : List String) :
    let s' := s.after lines
    s'.window.check = .ok () ∧
      (s'.window.left.isFinite = true ∧ s'.window.right.isFinite = true ∧
        s'.window.left < s'.window.right) ∧
      Checked.after s lines = .ok s' ∧
      ∀ line n, Numbered line n →
        (n ≤ s'.curves.length → ∃ s'', s'.reply line = .changed s'') ∧
          (s'.curves.length < n →
            s'.reply line = .refused (.noFunction (n - 1) s'.curves.length)) := by
  have hcheck := check_after hs lines
  refine ⟨hcheck, Window.check_eq_ok.mp hcheck, Checked.after_eq s lines, fun line n hline => ?_⟩
  obtain ⟨i, rfl⟩ : ∃ i, n = i + 1 := by
    obtain ⟨-, -, -, -, -, -, -, hpos⟩ := hline
    exact Nat.exists_eq_add_one.mpr hpos
  obtain ⟨hchanged, hrefused⟩ := hline.reply (s.after lines)
  exact ⟨hchanged, fun hlt => hrefused (Nat.le_of_lt_succ hlt)⟩

/-- The greatest number that a curve can have, when there are two curves. -/
theorem after_safe_greatest :
    let s := (Session.new ⟨-1, 1⟩ .hyphen).after [":range 2 1", "x; -x", ":range 0 1e300"]
    s.window = ⟨0, 1e300⟩ ∧ s.curves.length = 2 ∧ s.window.check = .ok () ∧
      s.reply ":hl 18446744073709551615" = .refused (.noFunction 18446744073709551614 2) ∧
      ∃ s', s.reply " :hide +2 " = .changed s' := by
  intro s
  have hstart : (Session.new ⟨-1, 1⟩ .hyphen).window.check = .ok () := by decide +kernel
  have hcurves : s.curves.length = 2 := by decide +kernel
  have hgreatest : Numbered ":hl 18446744073709551615" 18446744073709551615 :=
    ⟨_, "hl", "18446744073709551615", rfl, by decide +kernel, by decide, by decide +kernel, by decide⟩
  have hsecond : Numbered " :hide +2 " 2 :=
    ⟨"hide +2".toList, "hide", "+2", by decide +kernel, by decide +kernel, by decide,
      by decide +kernel, by decide⟩
  obtain ⟨hcheck, -, -, hnumbered⟩ :=
    after_safe hstart [":range 2 1", "x; -x", ":range 0 1e300"]
  have hrefused := (hnumbered _ _ hgreatest).2
  have hchanged := (hnumbered _ _ hsecond).1
  rw [hcurves] at hrefused hchanged
  exact ⟨by decide +kernel, hcurves, hcheck, hrefused (by decide), hchanged (by decide)⟩

end Session

end CurvePlot
