/-
**Numerals over the limit of digits.**

An integer numeral with more digits than the limit ends a scan at once, and it is the only lexeme that
does.  So the first such numeral, among the pieces that a text falls into, says where the scan of the
text ends; without one the scan goes through the whole text.

* `LoxLang.Piece.overLimit?`, `LoxLang.OverLimit` — the first integer numeral over the limit;
* `LoxLang.Falls.findSome?_tooLong`, `LoxLang.tooLong_eq_some_iff` — **where a scan ends**;
* `LoxLang.tooLong_eq_none`, `LoxLang.not_overLimit` — texts without such a numeral;
* `LoxLang.isLast_eq_false` — no step ends their scan.
-/

import LoxLang.Proofs.Token.MaximalMunch

set_option relaxedAutoImplicit false
set_option autoImplicit false

namespace LoxLang

/-! ### Numerals over the limit -/

/-- The digits of an integer numeral that has more of them than the limit. -/
def Piece.overLimit? (piece : Piece) : Option Nat :=
  if piece.lexeme = .whole ∧ Numeral.digitLimit < piece.slice.length then some piece.slice.length
  else none

/-- The first integer numeral over the limit, among the pieces that the text falls into, has so many
digits. -/
def OverLimit (source : String) (digits : Nat) : Prop :=
  ∃ pieces, Falls source.toList pieces ∧ pieces.findSome? Piece.overLimit? = some digits

theorem emission_whole_of_le {slice : List Char} (h : slice.length ≤ Numeral.digitLimit)
    (line : Int) : Lexeme.whole.emission slice line =
      .token ⟨.number, String.ofList slice, some (.number (.int (Numeral.value slice))), line⟩ :=
  if_pos h

theorem emission_whole_of_lt {slice : List Char} (h : Numeral.digitLimit < slice.length)
    (line : Int) : Lexeme.whole.emission slice line = .tooLong slice.length :=
  if_neg (Nat.not_le.2 h)

/-- The step of a piece ends the scan if the piece is a numeral over the limit. -/
theorem tooLong?_scanStep (line : Int) (first : Char) (found : Munch) :
    (scanStep line first found).tooLong? =
      Piece.overLimit? ⟨found.lexeme, first :: found.taken⟩ := by
  obtain ⟨lexeme, taken, rest⟩ := found
  cases lexeme with
  | whole =>
      unfold ScanStep.tooLong? scanStep Piece.overLimit?
      dsimp only
      by_cases hover : Numeral.digitLimit < (first :: taken).length
      · rw [emission_whole_of_lt hover, if_pos ⟨rfl, hover⟩]
      · rw [emission_whole_of_le (Nat.le_of_not_lt hover), if_neg fun h => hover h.2]
  | _ => rfl

theorem isLast_eq_isSome (step : ScanStep) : step.isLast = step.tooLong?.isSome := by
  unfold ScanStep.isLast ScanStep.tooLong?
  cases step.emission <;> rfl

/-- **The steps through a text end at its first numeral over the limit**, by induction on its pieces. -/
theorem Falls.findSome?_tooLong {text : List Char} {pieces : List Piece} (h : Falls text pieces)
    (line : Int) :
    (scanSteps line text).findSome? ScanStep.tooLong? = pieces.findSome? Piece.overLimit? := by
  induction h generalizing line with
  | nil =>
      rw [scanSteps_nil]
      rfl
  | @cons piece rest pieces hfirst hrest ih =>
      obtain ⟨lexeme, slice⟩ := piece
      obtain ⟨first, taken, hslice, hm⟩ := hfirst.munch_eq
      dsimp only at hslice hm
      subst hslice
      have hstep := tooLong?_scanStep line first (munch first (taken ++ rest))
      have hlast := isLast_eq_isSome (scanStep line first (munch first (taken ++ rest)))
      rw [hm] at hstep hlast
      rw [List.cons_append, scanSteps_cons, hm, hlast, List.findSome?_cons, ← hstep]
      cases hlong : (scanStep line first ⟨lexeme, taken, rest⟩).tooLong? with
      | none => simp [hlong, ih]
      | some digits => simp [hlong]

/-- **A scan is ended by the first integer numeral over the limit, and by nothing else.** -/
theorem tooLong_eq_some_iff {source : String} {digits : Nat} :
    (scan source).tooLong = some digits ↔ OverLimit source digits := by
  constructor
  · intro h
    obtain ⟨pieces, hfalls⟩ := exists_falls source.toList
    exact ⟨pieces, hfalls, (hfalls.findSome?_tooLong 1).symm.trans h⟩
  · rintro ⟨pieces, hfalls, h⟩
    exact (hfalls.findSome?_tooLong 1).trans h

theorem tooLong_eq_none {source : String} (h : ∀ digits, ¬ OverLimit source digits) :
    (scan source).tooLong = none := by
  refine Option.eq_none_iff_forall_ne_some.2 fun digits hd => ?_
  exact h digits (tooLong_eq_some_iff.1 hd)

theorem not_overLimit {source : String} (h : (scan source).tooLong = none) (digits : Nat) :
    ¬ OverLimit source digits := by
  intro hover
  rw [tooLong_eq_some_iff.2 hover] at h
  cases h

/-- No step ends the scan of a text that has no such numeral. -/
theorem isLast_eq_false {source : String} (h : (scan source).tooLong = none) {step : ScanStep}
    (hs : step ∈ scanSteps 1 source.toList) : step.isLast = false := by
  have hnone : step.tooLong? = none := List.findSome?_eq_none_iff.1 h step hs
  rw [isLast_eq_isSome, hnone]
  rfl

end LoxLang
