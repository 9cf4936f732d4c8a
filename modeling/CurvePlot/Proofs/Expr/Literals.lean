import CurvePlot.Proofs.Expr.Lexing
import CurvePlot.Proofs.Token.Partition

/-! Literals as they are written and as they are read.

A finite number without a sign is written as one literal, whichever of the two layouts is chosen for
it (`scans_numberText`), and the lexer takes all of that literal for the number again. In the other
direction, only such numbers are read from any text, also from one that has an error further on
(`Token.written_of_mem_stream`). -/

namespace CurvePlot

namespace Token

variable {t : Token} {start : Nat} {cs : List Char}

/-- The tokens in front of the end of a text, or of its error, have kinds that are written. -/
theorem written_of_mem_stream (h : .ok t ∈ stream start cs) (ht : t.kind ≠ .eof) :
    t.kind.Written := by
  fun_induction stream start cs with
  | case1 =>
    cases List.mem_singleton.mp h
    exact absurd rfl ht
  | case2 start cs offset kind text rest hr ih =>
    obtain h | h := List.mem_cons.mp h
    · cases h
      exact (Lexeme.read_token hr).1.written
    · exact ih h
  | case3 | case4 => cases List.mem_singleton.mp h

end Token

namespace Expr

open Binary64 Numeral

variable {v : Float} {rest : List Char}

/-- In both layouts, the digits of a number without a sign are those of its magnitude. -/
theorem scans_write {f : Nat → List Char} (hv : (Token.Kind.number v).Written)
    (hf : Scans (f (magnitude v)) (Decimal.shortest (magnitude v)) rest) :
    Scans (Decimal.write f v) (Decimal.shortest (magnitude v)) rest := by
  have hlt := isFinite_iff.mp hv.1
  rwa [Decimal.write, if_neg (by omega), if_neg (by omega), hv.2]

theorem scans_numberText (hv : (Token.Kind.number v).Written) (h : Ends rest) :
    Scans (numberText v) (Decimal.shortest (magnitude v)) rest := by
  have hlt := isFinite_iff.mp hv.1
  rw [numberText, if_neg (mt isNaN_iff.mp (by omega)), if_neg (mt isInf_iff.mp (by omega))]
  split
  · exact scans_write hv (scans_scientific _ h)
  · exact scans_write hv (scans_positional _ h)

theorem read_numberText (hv : (Token.Kind.number v).Written) (h : Ends rest) :
    Lexeme.read (numberText v ++ rest) = .token (.number v) (numberText v) rest := by
  have hle := Nat.le_of_lt (isFinite_iff.mp hv.1)
  have hback : (Decimal.shortest (magnitude v)).toFloat = v := by
    rw [Decimal.toFloat_shortest hle, ← hv.2, ofMagnitude_magnitude hle]
  obtain ⟨d, hscan, hd⟩ := scans_numberText hv h
  rw [hback] at hd
  subst hd
  exact Lexeme.read_number hscan hv.1

/-- **Literals survive writing.** The text of a number is one token, that of the same number at the
beginning of the text, if the number is finite and has no sign, and only then. No text at all has
tokens of other numbers. -/
theorem tokenize_numberText :
    (∀ v : Float,
      Token.tokenize (String.ofList (numberText v)) =
          .ok [⟨.number v, 0⟩, ⟨.eof, (numberText v).length⟩] ↔
        v.isFinite = true ∧ isNegative v = false) ∧
      ∀ (s : String) (v : Float) (offset : Nat),
        .ok ⟨.number v, offset⟩ ∈ Token.stream 0 s.toList →
          v.isFinite = true ∧ isNegative v = false := by
  refine ⟨fun v => ⟨fun h => ?_, fun hv => ?_⟩, fun s v offset h => ?_⟩
  · obtain ⟨us, o, hus, hwritten⟩ := Token.tokenize_ok h
    have hmem : (⟨.number v, 0⟩ : Token) ∈ us ++ [⟨.eof, o⟩] := hus ▸ List.mem_cons_self
    obtain hmem | hmem := List.mem_append.mp hmem
    · exact hwritten _ hmem
    · cases List.mem_singleton.mp hmem
  · have hread := read_numberText hv .nil
    rw [List.append_nil] at hread
    rw [Token.tokenize, String.toList_ofList, Token.stream_token hread, Token.stream_nil, Nat.zero_add]
    rfl
  · exact Token.written_of_mem_stream h nofun

/-- The least positive number has a power of ten, the greatest number below the switch to that layout
has none. Behind `2.5` in the last text stands a number that is too large. -/
theorem tokenize_numberText_layouts :
    String.ofList (numberText 5e-324) = "5e-324" ∧
      Token.tokenize "5e-324" = .ok [⟨.number 5e-324, 0⟩, ⟨.eof, 6⟩] ∧
        String.ofList (numberText 9999999999999998) = "9999999999999998" ∧
          Token.tokenize "9999999999999998" = .ok [⟨.number 9999999999999998, 0⟩, ⟨.eof, 16⟩] ∧
            .ok ⟨.number 2.5, 0⟩ ∈ Token.stream 0 "2.5*1e999".toList ∧
              (2.5 : Float).isFinite = true ∧ isNegative 2.5 = false := by
  have hleast : numberText 5e-324 = "5e-324".toList := by decide +kernel
  have hgreat : numberText 9999999999999998 = "9999999999999998".toList := by decide +kernel
  have hmem : .ok ⟨.number 2.5, 0⟩ ∈ Token.stream 0 "2.5*1e999".toList := by decide +kernel
  obtain ⟨hliteral, hread⟩ := tokenize_numberText
  have hleast' := (hliteral 5e-324).mpr (by decide +kernel)
  have hgreat' := (hliteral 9999999999999998).mpr (by decide +kernel)
  rw [hleast] at hleast' ⊢
  rw [hgreat] at hgreat' ⊢
  exact ⟨rfl, hleast', rfl, hgreat', hmem, hread _ _ _ hmem⟩

end Expr

end CurvePlot
