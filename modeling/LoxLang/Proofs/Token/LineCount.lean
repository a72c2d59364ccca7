/-
**Lines are counted where they end.**

A scan counts lines in two places.  A line feed between lexemes is a lexeme of its own and one line more,
and a string counts the line feeds in front of its closing quote as it passes them.  No other lexeme
counts any, and none has to: a comment stops in front of the line feed, and no mark, blank, numeral, word
or character that begins nothing has one in its slice.  So a lexeme ends as many lines down as there are
line feeds in its slice.

* `LoxLang.stringEndLine_eq` — the line on which a string ends;
* `LoxLang.Lexeme.Covers.not_mem` — characters that stand in no mark, numeral or word;
* `LoxLang.Lexeme.Covers.endLine_eq` — the slices of the classes;
* `LoxLang.endLine_munch`, `LoxLang.line_scanStep` — **the line on which a lexeme ends**.
-/

import LoxLang.Proofs.Token.LexicalClass
import LoxLang.Token.Lexer

set_option relaxedAutoImplicit false
set_option autoImplicit false

namespace LoxLang

/-! ### Strings -/

/-- **A string counts the line feeds in front of its closing quote**, or up to the end of the text if
there is none. -/
theorem stringEndLine_eq (line : Int) (text : List Char) :
    stringEndLine line text = line + (text.takeWhile (· != '"')).count '\n' := by
  induction text generalizing line with
  | nil => exact (Int.add_zero line).symm
  | cons c text ih =>
      unfold stringEndLine
      by_cases hquote : c = '"'
      · simp [hquote]
      have hpassed : (c :: text).takeWhile (· != '"') = c :: text.takeWhile (· != '"') :=
        List.takeWhile_cons_of_pos (p := (· != '"')) (bne_iff_ne.2 hquote)
      rw [if_neg hquote, hpassed]
      by_cases hline : c = '\n'
      · rw [if_pos hline, ih, hline, List.count_cons_self]
        omega
      · rw [if_neg hline, ih, List.count_cons_of_ne hline]

/-- The line on which a string begins only counts the one on which it ends up. -/
theorem stringEndLine_add (k line : Int) (text : List Char) :
    stringEndLine (line + k) text = stringEndLine line text + k := by
  rw [stringEndLine_eq, stringEndLine_eq]
  omega

theorem endLine_add (k line : Int) (taken : List Char) (lexeme : Lexeme) :
    lexeme.endLine (line + k) taken = lexeme.endLine line taken + k := by
  cases lexeme with
  | lineEnd => exact Int.add_right_comm line k 1
  | quoted text | unterminated => exact stringEndLine_add k line taken
  | mark kind | comment | blank | whole | fraction before after | word | illegal c => rfl

/-! ### Slices of the classes -/

/-- The lexeme is a mark, a numeral or a word. -/
def Lexeme.IsSolid : Lexeme → Prop
  | .mark _ | .whole | .fraction _ _ | .word => True
  | _ => False

/-- **A character that stands in no mark and in no word stands in no solid slice.** -/
theorem Lexeme.Covers.not_mem {lexeme : Lexeme} {slice : List Char} (h : lexeme.Covers slice)
    (hsolid : lexeme.IsSolid) {c : Char} (hmarks : ∀ entry ∈ marks, c ∉ entry.1)
    (hword : isWordChar c = false) : c ∉ slice := by
  intro hmem
  have hdigit : isDigit c ≠ true := by
    intro hd
    rw [isWordChar_of_isDigit hd] at hword
    cases hword
  cases h with
  | mark h => exact hmarks _ h hmem
  | whole hne hd => exact hdigit (hd c hmem)
  | fraction hb ha hbefore hafter =>
      rcases List.mem_append.1 hmem with hmem | hmem
      · exact hdigit (hbefore c hmem)
      rcases List.mem_cons.1 hmem with rfl | hmem
      · exact hmarks (['.'], .dot) (by decide) (List.mem_singleton_self _)
      · exact hdigit (hafter c hmem)
  | word hf ho =>
      rcases List.mem_cons.1 hmem with rfl | hmem
      · rw [isWordChar_of_isLetter hf] at hword
        cases hword
      · rw [ho c hmem] at hword
        cases hword
  | hashed h | slashed h | blank h | lineEnd | quoted h => exact hsolid

/-- A line feed stands in no mark, numeral or word. -/
theorem Lexeme.Covers.newline_not_mem {lexeme : Lexeme} {slice : List Char} (h : lexeme.Covers slice)
    (hsolid : lexeme.IsSolid) : '\n' ∉ slice :=
  h.not_mem hsolid (by decide) (by decide)

/-- **A slice of a class ends as many lines down as it has line feeds**, whether its class counts them or
it has none. -/
theorem Lexeme.Covers.endLine_eq {lexeme : Lexeme} {first : Char} {taken : List Char}
    (h : lexeme.Covers (first :: taken)) (line : Int) :
    lexeme.endLine line taken = line + (first :: taken).count '\n' := by
  -- Where no line is counted there must be no line feed.
  have hnone : '\n' ∉ first :: taken → line = line + (first :: taken).count '\n' := by
    intro hn
    rw [List.count_eq_zero.2 hn]
    exact (Int.add_zero line).symm
  have hsolid := h.newline_not_mem
  generalize hs : first :: taken = slice at h hnone hsolid
  cases h with
  | mark h | whole hne hd | fraction hb ha hbefore hafter | word hf ho => exact hnone (hsolid trivial)
  | hashed h => exact hnone (by simpa using h)
  | slashed h => exact hnone (by simpa using h)
  | blank h => exact hnone (by rcases h with rfl | rfl | rfl <;> decide)
  | lineEnd => rfl
  | @quoted text h =>
      cases hs
      -- The quote that closes the string is the first that is met.
      have hinside : ∀ c ∈ text, (c != '"') = true := fun c hc => bne_iff_ne.2 fun he => h (he ▸ hc)
      have hpassed : (text ++ ['"']).takeWhile (· != '"') = text := by
        rw [List.takeWhile_append_of_pos hinside]
        simp
      have hcount : ('"' :: (text ++ ['"'])).count '\n' = text.count '\n' := by
        simp [List.count_append]
      rw [hcount]
      exact (stringEndLine_eq line _).trans (by rw [hpassed])

/-! ### Lexemes of a text -/

/-- A string that is never closed has no quote in it. -/
theorem quote_not_mem_of_unterminated {text : List Char}
    (h : munch '"' text = ⟨.unterminated, text, []⟩) : '"' ∉ text := by
  rw [munch_quote] at h
  unfold munchString at h
  dsimp only at h
  split at h
  · next hstop =>
      have hinside := List.dropWhile_eq_nil_iff.1 hstop
      exact fun hmem => absurd (hinside _ hmem) (by decide)
  · cases h

/-- **A lexeme ends as many lines down as its slice has line feeds.** -/
theorem endLine_munch (line : Int) (first : Char) (text : List Char) :
    (munch first text).lexeme.endLine line (munch first text).taken =
      line + (first :: (munch first text).taken).count '\n' := by
  rcases munch_covers first text with h | ⟨rfl, hm⟩ | ⟨-, hm⟩
  · exact h.endLine_eq line
  · have hopen := quote_not_mem_of_unterminated hm
    have hinside : text.takeWhile (· != '"') = text :=
      List.takeWhile_eq_self_iff.2 fun c hc => bne_iff_ne.2 fun he => hopen (he ▸ hc)
    rw [hm]
    dsimp only [Lexeme.endLine]
    rw [stringEndLine_eq, hinside, List.count_cons_of_ne (by decide)]
  · have hne : first ≠ '\n' := by
      rintro rfl
      have hend : munch '\n' text = ⟨.lineEnd, [], text⟩ := rfl
      rw [hend] at hm
      cases hm
    rw [hm, List.count_cons_of_ne hne]
    exact (Int.add_zero line).symm

theorem line_scanStep (line : Int) (first : Char) (text : List Char) :
    (scanStep line first (munch first text)).line =
      line + (first :: (munch first text).taken).count '\n' :=
  endLine_munch line first text

end LoxLang
