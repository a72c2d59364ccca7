/-
**The tokens of a text.**

Every lexeme that yields a token yields one of its own class: a mark or a word has no literal, a string
carries a text and a numeral carries a number, and none of them ends the text.  So the tokens of a scan
end once, at their last.

* `LoxLang.mem_scanSteps` — every step is that of some lexeme;
* `LoxLang.Token.WellMade`, `LoxLang.wellMade_of_mem_scanSteps` — **the tokens in front of the end**;
* `LoxLang.scan_tokens_eq` — the tokens of a scan with their end.
-/

import LoxLang.Proofs.Token.LexicalClass
import LoxLang.Token.Lexer

set_option relaxedAutoImplicit false
set_option autoImplicit false

namespace LoxLang

/-- A token that a lexeme of a text may yield. -/
structure Token.WellMade (token : Token) : Prop where
  notEnd : token.kind ≠ .endOfSource
  string : token.kind = .string → ∃ text, token.literal = some (.text text)
  number : token.kind = .number → ∃ n, token.literal = some (.number n)

/-- The kind is that of a mark or a word. -/
def TokenKind.IsBare (kind : TokenKind) : Prop :=
  kind ≠ .endOfSource ∧ kind ≠ .string ∧ kind ≠ .number

theorem TokenKind.IsBare.wellMade {token : Token} (h : token.kind.IsBare) : token.WellMade where
  notEnd := h.1
  string hk := absurd hk h.2.1
  number hk := absurd hk h.2.2

/-- A string with its text. -/
theorem Token.WellMade.ofText {token : Token} {text : String} (hk : token.kind = .string)
    (hl : token.literal = some (.text text)) : token.WellMade where
  notEnd := by simp [hk]
  string _ := ⟨text, hl⟩
  number hn := by simp [hk] at hn

/-- A numeral with its number. -/
theorem Token.WellMade.ofNumber {token : Token} {n : Number} (hk : token.kind = .number)
    (hl : token.literal = some (.number n)) : token.WellMade where
  notEnd := by simp [hk]
  string hs := by simp [hk] at hs
  number _ := ⟨n, hl⟩

/-! ### Lexemes -/

theorem isBare_of_mem_marks {slice : List Char} {kind : TokenKind} (h : (slice, kind) ∈ marks) :
    kind.IsBare := by
  have hmarks : ∀ entry ∈ marks,
      entry.2 ≠ .endOfSource ∧ entry.2 ≠ .string ∧ entry.2 ≠ .number := by decide
  exact hmarks (slice, kind) h

theorem isBare_ofWord (word : String) : (TokenKind.ofWord word).IsBare := by
  have hreserved : ∀ entry ∈ TokenKind.reserved,
      entry.2 ≠ .endOfSource ∧ entry.2 ≠ .string ∧ entry.2 ≠ .number := by decide
  unfold TokenKind.ofWord
  cases hl : TokenKind.reserved.lookup word with
  | none => exact ⟨by decide, by decide, by decide⟩
  | some kind =>
      obtain ⟨before, after, hmem, -⟩ := List.lookup_eq_some_iff.1 hl
      refine hreserved (word, kind) ?_
      rw [hmem]
      simp

/-- A mark is neither an end nor a string nor a numeral. -/
theorem isBare_munch {first : Char} {text : List Char} {kind : TokenKind}
    (h : (munch first text).lexeme = .mark kind) : kind.IsBare := by
  rcases munch_covers first text with hc | ⟨-, hm⟩ | ⟨-, hm⟩
  · rw [h] at hc
    cases hc with
    | mark hmem => exact isBare_of_mem_marks hmem
  · rw [hm] at h
    cases h
  · rw [hm] at h
    cases h

/-- What a lexeme yields is well made. -/
theorem wellMade_of_emission {lexeme : Lexeme} {slice : List Char} {line : Int} {token : Token}
    (hmark : ∀ kind, lexeme = .mark kind → kind.IsBare)
    (h : (lexeme.emission slice line).token? = some token) : token.WellMade := by
  cases lexeme with
  | mark kind =>
      cases h
      exact (hmark kind rfl).wellMade
  | quoted text =>
      cases h
      exact .ofText rfl rfl
  | whole =>
      simp only [Lexeme.emission] at h
      split at h
      · cases h
        exact .ofNumber rfl rfl
      · cases h
  | fraction before after =>
      cases h
      exact .ofNumber rfl rfl
  | word =>
      cases h
      exact (isBare_ofWord _).wellMade
  | _ => cases h

/-! ### Scans -/

/-- **Every step is that of a lexeme.** -/
theorem mem_scanSteps {step : ScanStep} {line : Int} {text : List Char}
    (hs : step ∈ scanSteps line text) :
    ∃ line first rest, step = scanStep line first (munch first rest) := by
  induction text using munch_induction generalizing line with
  | nil =>
      rw [scanSteps_nil] at hs
      cases hs
  | cons first text ih =>
      rw [scanSteps_cons] at hs
      split at hs
      · exact ⟨line, first, text, List.mem_singleton.1 hs⟩
      · rcases List.mem_cons.1 hs with hs | hs
        · exact ⟨line, first, text, hs⟩
        · exact ih hs

/-- The tokens of a scan, and the one that ends the text. -/
theorem scan_tokens_eq (source : String) :
    (scan source).tokens = (scanSteps 1 source.toList).filterMap (·.emission.token?) ++
      [Token.endOfSource (lastLine 1 (scanSteps 1 source.toList))] := rfl

/-- **The tokens of a text in front of its end are well made.** -/
theorem wellMade_of_mem_scanSteps {source : String} {token : Token}
    (h : token ∈ (scanSteps 1 source.toList).filterMap (·.emission.token?)) : token.WellMade := by
  obtain ⟨step, hs, he⟩ := List.mem_filterMap.1 h
  obtain ⟨line, first, rest, rfl⟩ := mem_scanSteps hs
  exact wellMade_of_emission (fun kind => isBare_munch) he

end LoxLang
