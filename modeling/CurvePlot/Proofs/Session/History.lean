import CurvePlot.Session

/-! The session that is left by a history of lines.

* `Session.after` answers lines one after the other, up to one that quits.
* `Session.history` is the same lines as events, without those that are rejected.
* `Session.told` reads a session off its events: each part is what the last event about it says.

An event does to the session that was told what it says itself (`execute_told`), so that the session
after some lines is the one told by their history (`after_history`). -/

namespace CurvePlot.Session

/-- What a line is that a session accepts. -/
inductive Event where
  | load (fs : List Formula)
  | command (c : Command)
deriving DecidableEq

namespace Event

/-- The event that a line stands for, unless it is blank or can be read neither as a command nor as
a series. -/
def ofLine? (g : Glyph) (line : String) : Option Event :=
  if line.toList.all Text.isSpace then none
  else
    match Command.parse? line with
    | some (.ok c) => some (.command c)
    | some (.error _) => none
    | none =>
      match Series.split g line with
      | .ok fs => some (.load fs)
      | .error _ => none

/-- The curve that an event is about. -/
def index? : Event → Option Nat
  | .command (.hide i) | .command (.unhide i) => some i
  | .command (.highlight chosen) => chosen
  | _ => none

/-- Whether there is the curve that an event is about, among the first `n`. -/
def Fits (n : Nat) (e : Event) : Prop := ∀ i, e.index? = some i → i < n

instance (n : Nat) (e : Event) : Decidable (e.Fits n) :=
  inferInstanceAs (Decidable (∀ i ∈ e.index?, i < n))

/-- The event that a line stands for, if a session with `n` curves accepts it. -/
def accepted? (g : Glyph) (n : Nat) (line : String) : Option Event :=
  (ofLine? g line).filter fun e => e.Fits n

/-- The number of curves after an event to `n` curves. -/
def count (n : Nat) : Event → Nat
  | .load fs => fs.length
  | .command _ => n

/-- The formulas that an event loads. -/
def formulas? : Event → Option (List Formula)
  | .load fs => some fs
  | .command _ => none

/-- The window that an event sets. -/
def window? : Event → Option Window
  | .command (.range window) => some window
  | _ => none

/-- Whether an event hides the `k`-th curve or shows it. -/
def hides? (k : Nat) : Event → Option Bool
  | .command (.hide i) => if i = k then some true else none
  | .command (.unhide i) => if i = k then some false else none
  | _ => none

/-- The curve that an event makes stand out, or that none is to. -/
def chosen? : Event → Option (Option Nat)
  | .command (.highlight chosen) => some chosen
  | _ => none

end Event

open Event

variable {α : Type} {s s' : Session} {e : Event} {es : List Event} {c : Command}

/-- The events of some lines to a session with `n` curves, up to one that quits. Lines that are
rejected are no events. -/
def history (g : Glyph) (n : Nat) : List String → List Event
  | [] => []
  | line :: lines =>
    match accepted? g n line with
    | none => history g n lines
    | some (.command .quit) => []
    | some e => e :: history g (e.count n) lines

/-- What the last event says that says something. -/
def latest (f : Event → Option α) (es : List Event) : Option α := es.reverse.findSome? f

/-- The events after the last load. -/
def sinceLoad (es : List Event) : List Event :=
  (es.reverse.takeWhile fun e => e.formulas?.isNone).reverse

@[simp] theorem latest_nil (f : Event → Option α) : latest f [] = none := rfl

@[simp] theorem latest_concat (f : Event → Option α) (es : List Event) (e : Event) :
    latest f (es ++ [e]) = (f e).or (latest f es) := by
  rw [latest, List.reverse_concat, List.findSome?_cons]
  cases f e <;> rfl

@[simp] theorem sinceLoad_load (es : List Event) (fs : List Formula) :
    sinceLoad (es ++ [.load fs]) = [] := by
  rw [sinceLoad, List.reverse_concat]
  rfl

@[simp] theorem sinceLoad_command (es : List Event) (c : Command) :
    sinceLoad (es ++ [.command c]) = sinceLoad es ++ [.command c] := by
  rw [sinceLoad, List.reverse_concat, List.takeWhile_cons_of_pos rfl, List.reverse_cons]
  rfl

/-- The formulas of the last load. -/
def formulas (es : List Event) : List Formula := (latest formulas? es).getD []

/-- The curve that stands out, if one does. -/
def chosen (es : List Event) : Option Nat := (latest chosen? (sinceLoad es)).join

/-- The `k`-th curve that some events tell of, which has the formula `f`. -/
def curve (es : List Event) (k : Nat) (f : Formula) : Curve where
  color := .nth k
  formula := f
  hidden := latest (hides? k) (sinceLoad es) = some true
  highlight :=
    match chosen es with
    | none => .none
    | some i => if k = i then .highlighted else .obscured

/-- The session that some events tell of, if it started with the given window and glyph. -/
def told (window : Window) (glyph : Glyph) (es : List Event) : Session where
  curves := (formulas es).mapIdx (curve es)
  window := (latest window? es).getD window
  glyph := glyph

/-! ### Answering a line -/

/-- The session after a line, unless that quits. -/
def next (s : Session) (line : String) : Option Session :=
  match s.reply line with
  | .quit => none
  | .changed s' => some s'
  | _ => some s

/-- The session after some lines, of which those behind one that quits count for nothing. -/
def after (s : Session) : List String → Session
  | [] => s
  | line :: lines =>
    match s.next line with
    | none => s
    | some s' => s'.after lines

/-- The session after an event. -/
def execute (s : Session) : Event → Session
  | .load fs => { s with curves := color fs }
  | .command (.range window) => { s with window }
  | .command (.hide i) => { s with curves := s.curves.modify i fun c => { c with hidden := true } }
  | .command (.unhide i) => { s with curves := s.curves.modify i fun c => { c with hidden := false } }
  | .command (.highlight chosen) => { s with curves := Curve.highlightOnly chosen s.curves }
  | .command .quit => s

theorem apply_of_fits (hc : c ≠ .quit) (h : (Event.command c).Fits s.curves.length) :
    s.apply c = .ok (some (s.execute (.command c))) := by
  match c with
  | .range _ | .highlight none => rfl
  | .hide i | .unhide i => simp only [apply, change, if_pos (h i rfl)]; rfl
  | .highlight (some i) => exact if_pos (h i rfl)
  | .quit => exact absurd rfl hc

theorem apply_of_not_fits (h : ¬(Event.command c).Fits s.curves.length) :
    ∃ error, s.apply c = .error error := by
  have hout : ∀ i, (Event.command c).index? = some i → ¬i < s.curves.length := by
    rintro i hi hlt
    refine h fun j hj => ?_
    rw [hi] at hj
    exact Option.some.inj hj ▸ hlt
  match c with
  | .range _ | .highlight none | .quit => exact absurd nofun h
  | .hide i | .unhide i => exact ⟨_, by simp only [apply, change, if_neg (hout i rfl)]; rfl⟩
  | .highlight (some i) => exact ⟨_, if_neg (hout i rfl)⟩

/-- A line does to a session what its event does, if it is one. -/
theorem next_eq (s : Session) (line : String) :
    s.next line =
      match accepted? s.glyph s.curves.length line with
      | none => some s
      | some (.command .quit) => none
      | some e => some (s.execute e) := by
  rw [next, reply, accepted?, ofLine?]
  by_cases hblank : line.toList.all Text.isSpace
  · rw [if_pos hblank, if_pos hblank]; rfl
  rw [if_neg hblank, if_neg hblank]
  match Command.parse? line with
  | none =>
    simp only [load]
    cases Series.split s.glyph line <;> rfl
  | some (.error error) => rfl
  | some (.ok c) =>
    by_cases hfits : (Event.command c).Fits s.curves.length
    · simp only [Option.filter_some, decide_eq_true hfits]
      by_cases hc : c = .quit
      · subst hc; rfl
      · simp only [apply_of_fits hc hfits]
        cases c <;> first | rfl | exact absurd rfl hc
    · obtain ⟨error, herror⟩ := apply_of_not_fits hfits
      simp only [herror, Option.filter_some, decide_eq_false hfits]
      rfl

/-! ### What the events tell -/

@[simp] theorem formulas_load (es : List Event) (fs : List Formula) :
    formulas (es ++ [.load fs]) = fs := by
  simp [formulas, formulas?]

@[simp] theorem formulas_command (es : List Event) (c : Command) :
    formulas (es ++ [.command c]) = formulas es := by
  simp [formulas, formulas?]

@[simp] theorem chosen_load (es : List Event) (fs : List Formula) :
    chosen (es ++ [.load fs]) = none := by
  simp [chosen]

@[simp] theorem chosen_command (es : List Event) (c : Command) :
    chosen (es ++ [.command c]) = ((chosen? (.command c)).getD (chosen es)) := by
  cases c <;> simp [chosen, chosen?]

theorem length_told (window : Window) (glyph : Glyph) (es : List Event) :
    (told window glyph es).curves.length = (formulas es).length := List.length_mapIdx

theorem formulas_concat (es : List Event) (e : Event) :
    (formulas (es ++ [e])).length = e.count (formulas es).length := by
  cases e <;> simp [count]

theorem curve_load (es : List Event) (fs : List Formula) :
    curve (es ++ [.load fs]) = fun k f => .new (.nth k) f := by
  funext k f
  simp [curve, Curve.new]

/-- Commands about no curve leave all of them. -/
theorem curve_of_silent (es : List Event) (hhides : ∀ k, hides? k (.command c) = none)
    (hchosen : chosen? (.command c) = none) : curve (es ++ [.command c]) = curve es := by
  funext k f
  simp [curve, hhides, hchosen]

theorem curve_hide (es : List Event) (i : Nat) :
    curve (es ++ [.command (.hide i)]) = fun k f =>
      if i = k then { curve es k f with hidden := true } else curve es k f := by
  funext k f
  split <;> simp [curve, hides?, chosen?, *]

theorem curve_unhide (es : List Event) (i : Nat) :
    curve (es ++ [.command (.unhide i)]) = fun k f =>
      if i = k then { curve es k f with hidden := false } else curve es k f := by
  funext k f
  split <;> simp [curve, hides?, chosen?, *]

theorem curve_highlight (es : List Event) (chosen : Option Nat) :
    curve (es ++ [.command (.highlight chosen)]) = fun k f =>
      { curve es k f with highlight := Curve.mark chosen k } := by
  funext k f
  cases chosen <;> simp [curve, hides?, chosen?, Curve.mark, eq_comm]

theorem modify_mapIdx {β : Type} (l : List α) (f : Nat → α → β) (i : Nat) (g : β → β) :
    (l.mapIdx f).modify i g = l.mapIdx fun k a => if i = k then g (f k a) else f k a := by
  refine List.ext_getElem? fun k => ?_
  simp only [List.getElem?_modify, List.getElem?_mapIdx]
  cases l[k]? <;> rfl

/-- An event does to the session told before it what it says. -/
theorem execute_told (window : Window) (glyph : Glyph) (es : List Event) (e : Event) :
    (told window glyph es).execute e = told window glyph (es ++ [e]) := by
  rcases e with fs | w | i | i | chosen | _ <;> simp only [execute, told, Session.mk.injEq]
  case load => simp [color, curve_load, window?]
  case command.range => simp [curve_of_silent es (c := .range w) (fun _ => rfl) rfl, window?]
  case command.hide => simp [modify_mapIdx, curve_hide, window?]
  case command.unhide => simp [modify_mapIdx, curve_unhide, window?]
  case command.highlight =>
    simp [Curve.highlightOnly, List.mapIdx_mapIdx, Function.comp_def, curve_highlight, window?]
  case command.quit => simp [curve_of_silent es (c := .quit) (fun _ => rfl) rfl, window?]

/-- The session after some lines is the one that all events tell of together. -/
theorem after_told (window : Window) (glyph : Glyph) (es : List Event) (lines : List String) :
    (told window glyph es).after lines =
      told window glyph (es ++ history glyph (formulas es).length lines) := by
  induction lines generalizing es with
  | nil => rw [after, history, List.append_nil]
  | cons line lines ih =>
    have hnext := next_eq (told window glyph es) line
    rw [length_told, show (told window glyph es).glyph = glyph from rfl] at hnext
    rw [after, hnext, history]
    cases accepted? glyph (formulas es).length line with
    | none => exact ih es
    | some e =>
      by_cases he : e = .command .quit
      · rw [he, List.append_nil]
      · simp only [execute_told, ih, List.append_assoc, List.singleton_append, formulas_concat]

/-- The commands since the last load are about curves that it gave. -/
theorem fits_of_mem_history (glyph : Glyph) (lines : List String) (es : List Event)
    (hes : ∀ e ∈ sinceLoad es, e.Fits (formulas es).length) :
    let all := es ++ history glyph (formulas es).length lines
    ∀ e ∈ sinceLoad all, e.Fits (formulas all).length := by
  induction lines generalizing es with
  | nil => simpa [history] using hes
  | cons line lines ih =>
    rw [history]
    cases haccept : accepted? glyph (formulas es).length line with
    | none => exact ih es hes
    | some e =>
      by_cases he : e = .command .quit
      · rw [he, List.append_nil]
        exact hes
      · have hfits : e.Fits (formulas es).length := by
          obtain ⟨-, hdec⟩ := Option.filter_eq_some_iff.mp haccept
          exact of_decide_eq_true hdec
        have hrest := ih (es ++ [e]) <| by
          cases e with
          | load fs => simp
          | command c => simpa [or_imp, forall_and] using ⟨hes, hfits⟩
        simpa [formulas_concat] using hrest

theorem exists_of_latest {f : Event → Option α} {a : α} (h : latest f es = some a) :
    ∃ e ∈ es, f e = some a := by
  obtain ⟨e, he, hfe⟩ := List.exists_of_findSome?_eq_some h
  exact ⟨e, List.mem_reverse.mp he, hfe⟩

theorem chosen_lt (hes : ∀ e ∈ sinceLoad es, e.Fits (formulas es).length) {i : Nat}
    (hi : chosen es = some i) : i < (formulas es).length := by
  obtain ⟨e, he, hchosen⟩ := exists_of_latest (Option.join_eq_some_iff.mp hi)
  rcases e with _ | _ | _ | _ | chosen | _ <;> cases hchosen
  exact hes _ he i rfl

/-- **The session is what its last accepted lines say.** After any lines, of which those behind one
that quits count for nothing, a session that started without curves has the curves of the last
series that was loaded, in its order and in the colors of the palette. A curve is hidden if the last
command since then that hides or shows it hides it. If the last command since then that chooses a
curve to stand out names one, that one exists and is highlighted and all others are obscured, else
none is marked. The window is the one that was set last, before or after that series, and the glyph
never changes. -/
theorem after_history (window : Window) (glyph : Glyph) (lines : List String) :
    let es := history glyph 0 lines
    (Session.new window glyph).after lines = told window glyph es ∧
      ∀ i, chosen es = some i → i < (told window glyph es).curves.length := by
  refine ⟨after_told window glyph [] lines, fun i hi => ?_⟩
  rw [length_told]
  exact chosen_lt (fits_of_mem_history glyph lines [] nofun) hi

example : history .hyphen 0 ["-x;x", "", ":hide 2", ":hide 3", "x+", ":hl 1", ":q", "x"] =
    [.load [⟨.neg .var, .hyphen⟩, ⟨.var, .hyphen⟩], .command (.hide 1),
      .command (.highlight (some 0))] := by
  decide +kernel

end CurvePlot.Session
