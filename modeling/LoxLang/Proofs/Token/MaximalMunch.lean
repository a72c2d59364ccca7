/-
**A scan takes the longest lexemes and yields what their classes demand.**

A text falls into pieces in exactly one way, and a scan takes these pieces, one a step.  What a step
yields is said by the class of its piece: a token with the slice as its lexeme and with the kind and the
literal of the class, nothing, or an error.  Only an integer numeral over the limit of digits would end
the scan before the text does.

* `LoxLang.decimal`, `LoxLang.value_eq_decimal` — the value of decimal digits;
* `LoxLang.Lexeme.Demands` — **what a class demands**;
* `LoxLang.Yields` — the steps through the pieces of a text;
* `LoxLang.exists_falls`, `LoxLang.Falls.unique` — a text falls into pieces in exactly one way;
* `LoxLang.scan_maximalMunch` — **the scan of a text**.
-/

import Mathlib.Data.Nat.Digits.Defs
import LoxLang.Proofs.Number.Nearest
import LoxLang.Proofs.Token.LineCount

set_option relaxedAutoImplicit false
set_option autoImplicit false

namespace LoxLang

/-! ### Values of digits -/

/-- The number that decimal digits denote. -/
def decimal (digits : List Char) : Nat := Nat.ofDigits 10 (digits.reverse.map Numeral.digitValue)

theorem value_eq_decimal (digits : List Char) : Numeral.value digits = decimal digits := by
  unfold decimal
  induction digits with
  | nil => rfl
  | cons c digits ih =>
      rw [← List.singleton_append, Numeral.value_append, List.reverse_append, List.map_append,
        Nat.ofDigits_append, ← ih, List.length_map, List.length_reverse, Nat.add_comm,
        Nat.mul_comm]
      simp [Numeral.value]

/-! ### What a class demands -/

/-- What a piece of the given slice demands that ends on the given line. -/
inductive Lexeme.Demands (slice : List Char) (line : Int) : Lexeme → Emission → Prop where
  | mark {kind : TokenKind} :
      Demands slice line (.mark kind) (.token ⟨kind, String.ofList slice, none, line⟩)
  | comment : Demands slice line .comment .nothing
  | blank : Demands slice line .blank .nothing
  | lineEnd : Demands slice line .lineEnd .nothing
  | quoted {text : List Char} :
      Demands slice line (.quoted text)
        (.token ⟨.string, String.ofList slice, some (.text (String.ofList text)), line⟩)
  | whole :
      Demands slice line .whole
        (.token ⟨.number, String.ofList slice, some (.number (.int (decimal slice))), line⟩)
  /-- The double nearest to the digits over the power of ten that has a zero for each of them behind
  the point. -/
  | fraction {before after : List Char} {x : Binary64}
      (h : Binary64.Rounds false (decimal (before ++ after) * unitsPerOne) (10 ^ after.length) x) :
      Demands slice line (.fraction before after)
        (.token ⟨.number, String.ofList slice, some (.number (.double x)), line⟩)
  | reserved {kind : TokenKind} (h : (String.ofList slice, kind) ∈ TokenKind.reserved) :
      Demands slice line .word (.token ⟨kind, String.ofList slice, none, line⟩)
  | name (h : ∀ kind, (String.ofList slice, kind) ∉ TokenKind.reserved) :
      Demands slice line .word (.token ⟨.identifier, String.ofList slice, none, line⟩)
  | unterminated : Demands slice line .unterminated (.error ⟨line, .unterminatedString⟩)
  | illegal {c : Char} : Demands slice line (.illegal c) (.error ⟨line, .unexpectedCharacter c⟩)

/-- The steps through pieces, of which the first begins on the given line. -/
inductive Yields : Int → List Piece → List ScanStep → Prop where
  | nil {line : Int} : Yields line [] []
  | cons {line last : Int} {piece : Piece} {pieces : List Piece} {emission : Emission}
      {steps : List ScanStep} (hline : last = line + piece.slice.count '\n')
      (hpiece : piece.lexeme.Demands piece.slice last emission) (hrest : Yields last pieces steps) :
      Yields line (piece :: pieces) (⟨piece.slice, last, emission⟩ :: steps)

/-- The kind of a word is its own if it is reserved, and otherwise that of names. -/
theorem demands_word (slice : List Char) (line : Int) :
    Lexeme.word.Demands slice line (Lexeme.word.emission slice line) := by
  unfold Lexeme.emission TokenKind.ofWord
  cases hl : TokenKind.reserved.lookup (String.ofList slice) with
  | none =>
      refine .name fun kind hmem => ?_
      simpa using List.lookup_eq_none_iff.1 hl _ hmem
  | some kind =>
      obtain ⟨before, after, hmem, -⟩ := List.lookup_eq_some_iff.1 hl
      refine .reserved ?_
      rw [hmem]
      simp

/-- **A lexeme yields what its class demands**, unless it is an integer numeral over the limit. -/
theorem demands_emission {lexeme : Lexeme} {slice : List Char}
    (hshort : lexeme = .whole → slice.length ≤ Numeral.digitLimit) (line : Int) :
    lexeme.Demands slice line (lexeme.emission slice line) := by
  cases lexeme with
  | whole =>
      simp only [Lexeme.emission, if_pos (hshort rfl), value_eq_decimal]
      exact .whole
  | fraction before after =>
      simp only [Lexeme.emission, value_eq_decimal]
      exact .fraction (Binary64.rounds_ofDecimal false _ _)
  | word => exact demands_word slice line
  | mark kind => exact .mark
  | comment => exact .comment
  | blank => exact .blank
  | lineEnd => exact .lineEnd
  | quoted text => exact .quoted
  | unterminated => exact .unterminated
  | illegal c => exact .illegal

/-- Nothing that a class demands ends the scan. -/
theorem Lexeme.Demands.ne_tooLong {lexeme : Lexeme} {slice : List Char} {line : Int}
    {emission : Emission} (h : lexeme.Demands slice line emission) (digits : Nat) :
    emission ≠ .tooLong digits := by
  intro he
  subst he
  cases h

/-! ### The pieces of a text -/

/-- The lexeme that the reader takes is a piece in front of the pieces of what it leaves. -/
theorem Falls.of_rest {first : Char} {text : List Char} {pieces : List Piece}
    (h : Falls (munch first text).rest pieces) :
    Falls (first :: text)
      (⟨(munch first text).lexeme, first :: (munch first text).taken⟩ :: pieces) := by
  have hfalls := @Falls.cons ⟨_, first :: (munch first text).taken⟩ _ _
    (foremost_munch first text) h
  rw [List.cons_append, munch_tiles] at hfalls
  exact hfalls

/-- A text falls into pieces. -/
theorem exists_falls (text : List Char) : ∃ pieces, Falls text pieces := by
  induction text using munch_induction with
  | nil => exact ⟨[], .nil⟩
  | cons first text ih =>
      obtain ⟨pieces, hrest⟩ := ih
      exact ⟨_, hrest.of_rest⟩

/-- The pieces of a text are those of its front and of what is left. -/
theorem falls_cons {first : Char} {text : List Char} {pieces : List Piece}
    (h : Falls (first :: text) pieces) :
    ∃ others, pieces = ⟨(munch first text).lexeme, first :: (munch first text).taken⟩ :: others ∧
      Falls (munch first text).rest others := by
  generalize ht : first :: text = whole at h
  cases h with
  | nil => cases ht
  | @cons piece rest others hfirst hrest =>
      obtain ⟨lexeme, slice⟩ := piece
      obtain ⟨first', taken, hslice, hm⟩ := hfirst.munch_eq
      dsimp only at hslice ht
      subst hslice
      rw [List.cons_append] at ht
      cases ht
      rw [hm]
      exact ⟨others, rfl, hrest⟩

/-- **A text falls into pieces in one way only.** -/
theorem Falls.unique {text : List Char} {pieces others : List Piece} (h : Falls text pieces)
    (h' : Falls text others) : pieces = others := by
  induction h generalizing others with
  | nil =>
      generalize ht : ([] : List Char) = text at h'
      cases h' with
      | nil => rfl
      | cons hfirst hrest =>
          obtain ⟨first, taken, hslice, -⟩ := hfirst.munch_eq
          rw [hslice] at ht
          cases ht
  | @cons piece rest pieces hfirst hrest ih =>
      obtain ⟨first, taken, hslice, hm⟩ := hfirst.munch_eq
      rw [hslice, List.cons_append] at h'
      obtain ⟨others, rfl, hothers⟩ := falls_cons h'
      rw [hm] at hothers ⊢
      rw [ih hothers, ← hslice]

/-- The slices of the pieces tile the text, and none of them is empty. -/
theorem Falls.tiles {text : List Char} {pieces : List Piece} (h : Falls text pieces) :
    (pieces.map Piece.slice).flatten = text ∧ ∀ piece ∈ pieces, piece.slice ≠ [] := by
  induction h with
  | nil => exact ⟨rfl, fun _ hp => absurd hp List.not_mem_nil⟩
  | cons hfirst hrest ih =>
      obtain ⟨first, taken, hslice, -⟩ := hfirst.munch_eq
      refine ⟨by rw [List.map_cons, List.flatten_cons, ih.1], ?_⟩
      intro piece hp
      rcases List.mem_cons.1 hp with rfl | hp
      · rw [hslice]
        exact List.cons_ne_nil _ _
      · exact ih.2 piece hp

/-! ### Scans -/

/-- **The steps through a text are those of its pieces.** -/
theorem Falls.yields {text : List Char} {pieces : List Piece} (h : Falls text pieces)
    (hshort : ∀ piece ∈ pieces, piece.lexeme = .whole →
      piece.slice.length ≤ Numeral.digitLimit) (line : Int) :
    Yields line pieces (scanSteps line text) := by
  induction h generalizing line with
  | nil =>
      rw [scanSteps_nil]
      exact .nil
  | @cons piece rest pieces hfirst hrest ih =>
      obtain ⟨lexeme, slice⟩ := piece
      obtain ⟨first, taken, hslice, hm⟩ := hfirst.munch_eq
      dsimp only at hslice hm
      subst hslice
      have hdemands := demands_emission (hshort ⟨lexeme, first :: taken⟩ List.mem_cons_self)
        (lexeme.endLine line taken)
      have hline := endLine_munch line first (taken ++ rest)
      rw [hm] at hline
      -- Only an integer numeral over the limit would end the steps here.
      have hlast : (scanStep line first (munch first (taken ++ rest))).isLast = false := by
        rw [hm]
        unfold ScanStep.isLast
        split
        · next digits he => exact absurd he (hdemands.ne_tooLong digits)
        · rfl
      rw [List.cons_append, scanSteps_cons_of_not_isLast hlast, hm]
      exact .cons hline hdemands (ih (fun piece hp => hshort piece (List.mem_cons_of_mem _ hp)) _)

/-- None of the steps ends the scan. -/
theorem Yields.tooLong?_eq_none {line : Int} {pieces : List Piece} {steps : List ScanStep}
    (h : Yields line pieces steps) : steps.findSome? ScanStep.tooLong? = none := by
  induction h with
  | nil => rfl
  | @cons line last piece pieces emission steps hline hpiece hrest ih =>
      have hnone : ScanStep.tooLong? ⟨piece.slice, last, emission⟩ = none := by
        unfold ScanStep.tooLong?
        dsimp only
        split
        · exact absurd rfl (hpiece.ne_tooLong _)
        · rfl
      rw [List.findSome?_cons, hnone]
      exact ih

/-- The steps have the slices of the pieces. -/
theorem Yields.slices {line : Int} {pieces : List Piece} {steps : List ScanStep}
    (h : Yields line pieces steps) : steps.map ScanStep.slice = pieces.map Piece.slice := by
  induction h with
  | nil => rfl
  | cons hline hpiece hrest ih => rw [List.map_cons, List.map_cons, ih]

/-- **A scan takes the longest lexemes of its text, one a step, and yields what they demand**, if no
integer numeral among them is over the limit of digits. -/
theorem scan_maximalMunch (source : String)
    (hshort : ∀ pieces, Falls source.toList pieces → ∀ piece ∈ pieces, piece.lexeme = .whole →
      piece.slice.length ≤ Numeral.digitLimit) :
    ∃ pieces, (∀ others, Falls source.toList others ↔ others = pieces) ∧
      (pieces.map Piece.slice).flatten = source.toList ∧
      (∀ piece ∈ pieces, piece.slice ≠ []) ∧
      Yields 1 pieces (scanSteps 1 source.toList) ∧
      (scan source).tokens = (scanSteps 1 source.toList).filterMap (·.emission.token?) ++
        [Token.endOfSource (lastLine 1 (scanSteps 1 source.toList))] ∧
      (scan source).errors = (scanSteps 1 source.toList).filterMap (·.emission.error?) ∧
      (scan source).tooLong = none := by
  obtain ⟨pieces, hfalls⟩ := exists_falls source.toList
  obtain ⟨htiles, hne⟩ := hfalls.tiles
  have hyields := hfalls.yields (hshort pieces hfalls) 1
  refine ⟨pieces, fun others => ⟨fun h => h.unique hfalls, fun h => h ▸ hfalls⟩, htiles, hne,
    hyields, rfl, rfl, hyields.tooLong?_eq_none⟩

/-- No piece is longer than the text. -/
theorem Falls.slice_length_le {text : List Char} {pieces : List Piece} (h : Falls text pieces)
    {piece : Piece} (hp : piece ∈ pieces) : piece.slice.length ≤ text.length := by
  rw [← h.tiles.1]
  exact (List.sublist_flatten_of_mem (List.mem_map_of_mem hp)).length_le

/-- Points next to digits, operators that run into one another, comments, a string over two lines, a
character that begins nothing and a string that is never closed. -/
def edgeSource : String := "1.5.x!==//c#\n\"a\nb\"2.@ \"#"

/-- The slices of such a text. -/
theorem scan_maximalMunch_edgeSource :
    (∀ pieces, Falls edgeSource.toList pieces → ∀ piece ∈ pieces, piece.lexeme = .whole →
      piece.slice.length ≤ Numeral.digitLimit) ∧
    ∃ pieces, Falls edgeSource.toList pieces ∧ pieces.map (String.ofList ∘ Piece.slice) =
      ["1.5", ".", "x", "!=", "=", "//c#", "\n", "\"a\nb\"", "2", ".", "@", " ", "\"#"] := by
  have hshort : ∀ pieces, Falls edgeSource.toList pieces → ∀ piece ∈ pieces,
      piece.lexeme = .whole → piece.slice.length ≤ Numeral.digitLimit := by
    intro pieces h piece hp _
    exact Nat.le_trans (h.slice_length_le hp) (by decide)
  obtain ⟨pieces, hfalls, -, -, hyields, -⟩ := scan_maximalMunch edgeSource hshort
  refine ⟨hshort, pieces, (hfalls pieces).2 rfl, ?_⟩
  rw [← List.map_map, ← hyields.slices]
  decide +kernel

end LoxLang
