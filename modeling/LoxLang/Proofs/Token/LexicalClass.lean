/-
**The lexical classes, and the pieces that a text falls into.**

What a slice may be is said here without a reader: a class is a set of slices, the piece at the front of
a text is the longest slice of any class that the text begins with, and a text falls into the piece at
its front and the pieces of what is left.  Two kinds of pieces belong to no class, and stand only where
no slice of a class does: a string that is never closed, which goes on to the end, and a single character
that begins nothing.

* `LoxLang.marks`, `LoxLang.Lexeme.Covers` — the classes and their slices;
* `LoxLang.Foremost` — **the piece at the front of a text**;
* `LoxLang.Piece`, `LoxLang.Falls` — the pieces of a text;
* `LoxLang.Lexeme.Covers.munch_append`, `LoxLang.Lexeme.Covers.munch_eq` — a slice of a class in front of
  other text;
* `LoxLang.munch_covers` — what the reader takes is a slice of its class;
* `LoxLang.foremost_munch`, `LoxLang.Foremost.munch_eq` — **the reader takes the piece at the front, and
  there is only one**.
-/

import Mathlib.Data.List.TakeWhile
import LoxLang.Token.Lexeme

set_option relaxedAutoImplicit false
set_option autoImplicit false

namespace LoxLang

/-! ### Classes -/

/-- The punctuation and the operators. -/
def marks : List (List Char × TokenKind) :=
  [(['('], .leftParen), ([')'], .rightParen), (['\x7b'], .leftBrace), (['\x7d'], .rightBrace),
    ([','], .comma), (['.'], .dot), (['-'], .minus), (['+'], .plus), ([';'], .semicolon),
    (['/'], .slash), (['*'], .star),
    (['!'], .bang), (['!', '='], .bangEqual), (['='], .equal), (['=', '='], .equalEqual),
    (['>'], .greater), (['>', '='], .greaterEqual), (['<'], .less), (['<', '='], .lessEqual)]

/-- The slice belongs to the class of the lexeme. -/
inductive Lexeme.Covers : Lexeme → List Char → Prop where
  | mark {slice : List Char} {kind : TokenKind} (h : (slice, kind) ∈ marks) :
      Covers (.mark kind) slice
  | hashed {text : List Char} (h : '\n' ∉ text) : Covers .comment ('#' :: text)
  | slashed {text : List Char} (h : '\n' ∉ text) : Covers .comment ('/' :: '/' :: text)
  | blank {c : Char} (h : c = ' ' ∨ c = '\r' ∨ c = '\t') : Covers .blank [c]
  | lineEnd : Covers .lineEnd ['\n']
  | quoted {text : List Char} (h : '"' ∉ text) : Covers (.quoted text) ('"' :: (text ++ ['"']))
  | whole {digits : List Char} (hne : digits ≠ []) (hd : ∀ c ∈ digits, isDigit c) :
      Covers .whole digits
  | fraction {before after : List Char} (hb : before ≠ []) (ha : after ≠ [])
      (hbefore : ∀ c ∈ before, isDigit c) (hafter : ∀ c ∈ after, isDigit c) :
      Covers (.fraction before after) (before ++ '.' :: after)
  | word {first : Char} {others : List Char} (hf : isLetter first)
      (ho : ∀ c ∈ others, isWordChar c) : Covers .word (first :: others)

/-! ### Pieces -/

/-- The lexeme at the front of a text, its slice, and what it leaves. -/
inductive Foremost : Lexeme → List Char → List Char → Prop where
  /-- The longest slice of any class. -/
  | longest {lexeme : Lexeme} {slice rest : List Char} (hc : lexeme.Covers slice)
      (hmax : ∀ (other : Lexeme) (ahead : List Char), other.Covers ahead →
        ahead <+: slice ++ rest → ahead.length ≤ slice.length) :
      Foremost lexeme slice rest
  /-- A string that is never closed. -/
  | unterminated {text : List Char}
      (hnone : ∀ (other : Lexeme) (ahead : List Char), other.Covers ahead →
        ¬ ahead <+: '"' :: text) :
      Foremost .unterminated ('"' :: text) []
  /-- A character that begins nothing. -/
  | illegal {c : Char} {rest : List Char} (hq : c ≠ '"')
      (hnone : ∀ (other : Lexeme) (ahead : List Char), other.Covers ahead →
        ¬ ahead <+: c :: rest) :
      Foremost (.illegal c) [c] rest

/-- A slice of a text, and what it is. -/
structure Piece where
  lexeme : Lexeme
  slice : List Char
  deriving DecidableEq

/-- The pieces of a text, from its front on. -/
inductive Falls : List Char → List Piece → Prop where
  | nil : Falls [] []
  | cons {piece : Piece} {rest : List Char} {pieces : List Piece}
      (hfirst : Foremost piece.lexeme piece.slice rest) (hrest : Falls rest pieces) :
      Falls (piece.slice ++ rest) (piece :: pieces)

/-! ### How the reader tells the classes apart -/

/-- A letter or a digit is the first character of no mark, comment, blank, line end or string. -/
theorem opens_nothing_of_isWordChar {c : Char} (h : isWordChar c = true) :
    punctuation? c = none ∧ comparison? c = none ∧
      c ≠ '/' ∧ c ≠ '#' ∧ c ≠ ' ' ∧ c ≠ '\r' ∧ c ≠ '\t' ∧ c ≠ '\n' ∧ c ≠ '"' := by
  refine ⟨?_, ?_, ?_⟩
  · unfold punctuation?
    split <;> first | rfl | exact absurd h (by decide)
  · unfold comparison?
    split <;> first | rfl | exact absurd h (by decide)
  · refine ⟨?_, ?_, ?_, ?_, ?_, ?_, ?_⟩ <;> (rintro rfl; exact absurd h (by decide))

theorem isWordChar_of_isDigit {c : Char} (h : isDigit c = true) : isWordChar c = true := by
  simp [isWordChar, h]

theorem isWordChar_of_isLetter {c : Char} (h : isLetter c = true) : isWordChar c = true := by
  simp [isWordChar, h]

theorem munch_hash (text : List Char) : munch '#' text = munchComment text := rfl

theorem munch_slash_slash (text : List Char) :
    munch '/' ('/' :: text) =
      ⟨.comment, '/' :: (munchComment text).taken, (munchComment text).rest⟩ := rfl

theorem munch_quote (text : List Char) : munch '"' text = munchString text := rfl

theorem munch_digit {c : Char} (h : isDigit c = true) (text : List Char) :
    munch c text = munchNumeral c text := by
  obtain ⟨hp, hc, hothers⟩ := opens_nothing_of_isWordChar (isWordChar_of_isDigit h)
  simp [munch, hp, hc, hothers, h]

/-- The letters lie above the digits. -/
theorem isDigit_of_isLetter {c : Char} (h : isLetter c = true) : isDigit c = false := by
  have hnine : ('9' : Char).val.toNat = 57 := rfl
  have hupper : ('A' : Char).val.toNat = 65 := rfl
  have hlower : ('a' : Char).val.toNat = 97 := rfl
  simp only [isLetter, isDigit, Char.le_def, UInt32.le_iff_toNat_le, Bool.or_eq_true,
    Bool.and_eq_true, decide_eq_true_eq, beq_iff_eq, Bool.and_eq_false_iff,
    decide_eq_false_iff_not] at h ⊢
  rcases h with (h | h) | rfl
  · exact .inr (by omega)
  · exact .inr (by omega)
  · exact .inr (by decide)

theorem munch_letter {c : Char} (h : isLetter c = true) (text : List Char) :
    munch c text = Munch.spanning .word isWordChar text := by
  obtain ⟨hp, hc, hothers⟩ := opens_nothing_of_isWordChar (isWordChar_of_isLetter h)
  simp [munch, hp, hc, hothers, isDigit_of_isLetter h, h]

/-- A mark is punctuation, a slash, or an operator without or with its equals sign. -/
theorem marks_cases {first : Char} {others : List Char} {kind : TokenKind}
    (h : (first :: others, kind) ∈ marks) :
    (punctuation? first = some kind ∧ others = []) ∨
      (first = '/' ∧ others = [] ∧ kind = .slash) ∨
        ∃ kinds, punctuation? first = none ∧ comparison? first = some kinds ∧
          (others = [] ∧ kind = kinds.1 ∨ others = ['='] ∧ kind = kinds.2) := by
  simp only [marks, List.mem_cons, Prod.mk.injEq, List.cons.injEq, List.not_mem_nil, or_false] at h
  rcases h with h | h | h | h | h | h | h | h | h | h | h | h | h | h | h | h | h | h | h <;>
    (obtain ⟨⟨rfl, rfl⟩, rfl⟩ := h; simp [punctuation?, comparison?])

theorem mem_marks_of_punctuation {c : Char} {kind : TokenKind} (h : punctuation? c = some kind) :
    ([c], kind) ∈ marks := by
  unfold punctuation? at h
  split at h <;> cases h <;> decide

theorem mem_marks_of_comparison {c : Char} {kinds : TokenKind × TokenKind}
    (h : comparison? c = some kinds) : ([c], kinds.1) ∈ marks ∧ ([c, '='], kinds.2) ∈ marks := by
  unfold comparison? at h
  split at h <;> cases h <;> decide

/-! ### Slices of a class in front of other text -/

/-- A slice of a class has a first character. -/
theorem Lexeme.Covers.ne_nil {lexeme : Lexeme} {slice : List Char} (h : lexeme.Covers slice) :
    slice ≠ [] := by
  cases h with
  | mark h =>
      rintro rfl
      revert h
      simp [marks]
  | whole hne hd => exact hne
  | _ => simp

/-- The lexeme belongs to no class. -/
def Lexeme.IsFlaw : Lexeme → Prop
  | .unterminated | .illegal _ => True
  | _ => False

/-- The characters that pass the test go on over those of the slice. -/
theorem spanning_append {test : Char → Bool} {slice : List Char} (h : ∀ c ∈ slice, test c = true)
    (lexeme : Lexeme) (rest : List Char) :
    Munch.spanning lexeme test (slice ++ rest) =
      ⟨lexeme, slice ++ rest.takeWhile test, rest.dropWhile test⟩ := by
  rw [Munch.spanning, List.takeWhile_append_of_pos h, List.dropWhile_append_of_pos h]

theorem munchComment_append {text : List Char} (h : '\n' ∉ text) (rest : List Char) :
    munchComment (text ++ rest) =
      ⟨.comment, text ++ rest.takeWhile (· != '\n'), rest.dropWhile (· != '\n')⟩ := by
  have hinside : ∀ c ∈ text, (c != '\n') = true := fun c hc => bne_iff_ne.2 fun he => h (he ▸ hc)
  exact spanning_append hinside _ rest

theorem munchString_quoted {text : List Char} (h : '"' ∉ text) (rest : List Char) :
    munchString (text ++ '"' :: rest) = ⟨.quoted text, text ++ ['"'], rest⟩ := by
  have hinside : ∀ c ∈ text, (c != '"') = true := fun c hc => bne_iff_ne.2 fun he => h (he ▸ hc)
  unfold munchString
  rw [List.takeWhile_append_of_pos hinside, List.dropWhile_append_of_pos hinside]
  simp

/-- A numeral takes the digits that it begins with. -/
theorem munchNumeral_append (first : Char) {digits : List Char} (h : ∀ c ∈ digits, isDigit c = true)
    (rest : List Char) : digits <+: (munchNumeral first (digits ++ rest)).taken := by
  unfold munchNumeral
  rw [List.takeWhile_append_of_pos h, List.dropWhile_append_of_pos h]
  dsimp only
  split
  · split
    · exact ⟨_, (List.append_assoc ..).symm⟩
    · exact List.prefix_append ..
  · exact List.prefix_append ..

theorem munchNumeral_fraction (first : Char) {before after : List Char} (ha : after ≠ [])
    (hbefore : ∀ c ∈ before, isDigit c = true) (hafter : ∀ c ∈ after, isDigit c = true)
    (rest : List Char) :
    munchNumeral first (before ++ '.' :: after ++ rest) =
      ⟨.fraction (first :: before) (after ++ rest.takeWhile isDigit),
        before ++ '.' :: (after ++ rest.takeWhile isDigit), rest.dropWhile isDigit⟩ := by
  have hpoint : isDigit '.' = false := by decide
  obtain ⟨digit, after, rfl⟩ := List.exists_cons_of_ne_nil ha
  have hdigit : isDigit digit = true := hafter digit List.mem_cons_self
  have hmore : ∀ c ∈ after, isDigit c = true := fun c hc => hafter c (List.mem_cons_of_mem _ hc)
  unfold munchNumeral
  rw [List.append_assoc, List.takeWhile_append_of_pos hbefore,
    List.dropWhile_append_of_pos hbefore]
  simp [hpoint, hdigit, List.takeWhile_append_of_pos hmore, List.dropWhile_append_of_pos hmore]

theorem munchNumeral_not_isFlaw (first : Char) (text : List Char) :
    ¬ (munchNumeral first text).lexeme.IsFlaw := by
  unfold munchNumeral
  dsimp only
  split
  · split <;> exact not_false
  · exact not_false

theorem munchComparison_not_isFlaw (kinds : TokenKind × TokenKind) (text : List Char) :
    ¬ (munchComparison kinds text).lexeme.IsFlaw := by
  unfold munchComparison
  split <;> exact not_false

theorem munchSlash_not_isFlaw (text : List Char) : ¬ (munchSlash text).lexeme.IsFlaw := by
  unfold munchSlash
  split <;> exact not_false

/-- **In front of any text the reader takes a slice of a class whole**, and finds no flaw there. -/
theorem Lexeme.Covers.munch_append {lexeme : Lexeme} {first : Char} {others : List Char}
    (h : lexeme.Covers (first :: others)) (rest : List Char) :
    others <+: (munch first (others ++ rest)).taken ∧
      ¬ (munch first (others ++ rest)).lexeme.IsFlaw := by
  generalize hs : first :: others = slice at h
  cases h with
  | mark h =>
      subst hs
      -- A slash may turn out to open a comment, and an operator to have an equals sign behind it.
      rcases marks_cases h with ⟨hp, rfl⟩ | ⟨rfl, rfl, -⟩ | ⟨kinds, hp, hc, ⟨rfl, -⟩ | ⟨rfl, -⟩⟩
      · simp [munch, hp, IsFlaw]
      · exact ⟨List.nil_prefix, munchSlash_not_isFlaw _⟩
      · simp only [munch, hp, hc]
        exact ⟨List.nil_prefix, munchComparison_not_isFlaw _ _⟩
      · simp only [munch, hp, hc]
        exact ⟨List.prefix_refl _, munchComparison_not_isFlaw _ _⟩
  | hashed h =>
      cases hs
      rw [munch_hash, munchComment_append h]
      exact ⟨List.prefix_append .., not_false⟩
  | slashed h =>
      cases hs
      rw [List.cons_append, munch_slash_slash, munchComment_append h]
      exact ⟨List.prefix_append .., not_false⟩
  | blank h =>
      cases hs
      rcases h with rfl | rfl | rfl <;> exact ⟨List.nil_prefix, not_false⟩
  | lineEnd =>
      cases hs
      exact ⟨List.nil_prefix, not_false⟩
  | @quoted text h =>
      cases hs
      rw [munch_quote, List.append_assoc, List.singleton_append,
        munchString_quoted h]
      exact ⟨List.prefix_refl _, not_false⟩
  | whole hne hd =>
      subst hs
      rw [munch_digit (hd first List.mem_cons_self)]
      exact ⟨munchNumeral_append first (fun c hc => hd c (List.mem_cons_of_mem _ hc)) rest,
        munchNumeral_not_isFlaw first _⟩
  | @fraction before after hb ha hbefore hafter =>
      obtain ⟨digit, before, rfl⟩ := List.exists_cons_of_ne_nil hb
      rw [List.cons_append] at hs
      cases hs
      rw [munch_digit (hbefore first List.mem_cons_self),
        munchNumeral_fraction first ha (fun c hc => hbefore c (List.mem_cons_of_mem _ hc)) hafter]
      exact ⟨⟨rest.takeWhile isDigit, by simp⟩, not_false⟩
  | word hf ho =>
      cases hs
      rw [munch_letter hf, spanning_append ho]
      exact ⟨List.prefix_append .., not_false⟩

/-- A slice of a class is set apart: it ends the text, or is followed by a space that is not in it. -/
def Lexeme.SetApart (lexeme : Lexeme) (rest : List Char) : Prop :=
  rest = [] ∨ lexeme ≠ .comment ∧ ∃ more, rest = ' ' :: more

theorem Lexeme.SetApart.takeWhile {lexeme : Lexeme} {rest : List Char} (h : lexeme.SetApart rest)
    {test : Char → Bool} (ht : test ' ' = false) :
    rest.takeWhile test = [] ∧ rest.dropWhile test = rest := by
  rcases h with rfl | ⟨-, more, rfl⟩
  · exact ⟨rfl, rfl⟩
  · simp [ht]

/-- **A slice of a class that is set apart is read as what it is.** -/
theorem Lexeme.Covers.munch_eq {lexeme : Lexeme} {first : Char} {others : List Char}
    (h : lexeme.Covers (first :: others)) {rest : List Char} (hr : lexeme.SetApart rest) :
    munch first (others ++ rest) = ⟨lexeme, others, rest⟩ := by
  generalize hs : first :: others = slice at h
  cases h with
  | mark h =>
      subst hs
      rcases marks_cases h with ⟨hp, rfl⟩ | ⟨rfl, rfl, rfl⟩ |
        ⟨kinds, hp, hc, ⟨rfl, rfl⟩ | ⟨rfl, rfl⟩⟩
      · simp [munch, hp]
      · rcases hr with rfl | ⟨-, more, rfl⟩ <;> rfl
      · simp only [munch, hp, hc]
        rcases hr with rfl | ⟨-, more, rfl⟩ <;> rfl
      · simp only [munch, hp, hc]
        rfl
  | hashed h =>
      cases hs
      obtain rfl := hr.resolve_right fun hspace => hspace.1 rfl
      rw [munch_hash, munchComment_append h]
      simp
  | slashed h =>
      cases hs
      obtain rfl := hr.resolve_right fun hspace => hspace.1 rfl
      rw [List.cons_append, munch_slash_slash, munchComment_append h]
      simp
  | blank h =>
      cases hs
      rcases h with rfl | rfl | rfl <;> rfl
  | lineEnd =>
      cases hs
      rfl
  | @quoted text h =>
      cases hs
      rw [munch_quote, List.append_assoc, List.singleton_append,
        munchString_quoted h]
  | whole hne hd =>
      subst hs
      have hmore : ∀ c ∈ others, isDigit c = true := fun c hc => hd c (List.mem_cons_of_mem _ hc)
      rw [munch_digit (hd first List.mem_cons_self)]
      unfold munchNumeral
      rw [List.takeWhile_append_of_pos hmore, List.dropWhile_append_of_pos hmore]
      -- Neither the end nor a space is a digit or the point of a fraction.
      rcases hr with rfl | ⟨-, more, rfl⟩
      · simp
      · simp [show isDigit ' ' = false by decide]
  | @fraction before after hb ha hbefore hafter =>
      obtain ⟨digit, before, rfl⟩ := List.exists_cons_of_ne_nil hb
      rw [List.cons_append] at hs
      cases hs
      obtain ⟨htake, hdrop⟩ := hr.takeWhile (show isDigit ' ' = false by decide)
      rw [munch_digit (hbefore first List.mem_cons_self),
        munchNumeral_fraction first ha (fun c hc => hbefore c (List.mem_cons_of_mem _ hc)) hafter,
        htake, hdrop, List.append_nil]
  | word hf ho =>
      cases hs
      obtain ⟨htake, hdrop⟩ := hr.takeWhile (show isWordChar ' ' = false by decide)
      rw [munch_letter hf, spanning_append ho, htake, hdrop, List.append_nil]

/-- A slice belongs to one class only. -/
theorem Lexeme.Covers.unique {lexeme other : Lexeme} {slice : List Char} (h : lexeme.Covers slice)
    (h' : other.Covers slice) : lexeme = other := by
  obtain ⟨first, others, rfl⟩ := List.exists_cons_of_ne_nil h.ne_nil
  have hm := h.munch_eq (.inl rfl)
  rw [h'.munch_eq (.inl rfl)] at hm
  exact (congrArg Munch.lexeme hm).symm

/-! ### What the reader takes -/

theorem mem_takeWhile_of_bne {c stop : Char} {text : List Char}
    (h : c ∈ text.takeWhile (· != stop)) : c ≠ stop := by
  have hpass : (c != stop) = true := List.mem_takeWhile_imp (p := (· != stop)) h
  exact bne_iff_ne.1 hpass

/-- What is left begins with the character that stopped the reader. -/
theorem eq_of_dropWhile_bne {c stop : Char} {text rest : List Char}
    (h : text.dropWhile (· != stop) = c :: rest) : c = stop := by
  have hfail := List.head?_dropWhile_not (· != stop) text
  rw [h] at hfail
  simpa using hfail

theorem munchComparison_covers {first : Char} {kinds : TokenKind × TokenKind}
    (h : comparison? first = some kinds) (text : List Char) :
    (munchComparison kinds text).lexeme.Covers (first :: (munchComparison kinds text).taken) := by
  obtain ⟨hplain, hequal⟩ := mem_marks_of_comparison h
  unfold munchComparison
  split
  · exact .mark hequal
  · exact .mark hplain

theorem munchSlash_covers (text : List Char) :
    (munchSlash text).lexeme.Covers ('/' :: (munchSlash text).taken) := by
  unfold munchSlash
  split
  · exact .slashed fun hin => mem_takeWhile_of_bne hin rfl
  · exact .mark (show (['/'], TokenKind.slash) ∈ marks by decide)

theorem munchNumeral_covers {first : Char} (h : isDigit first = true) (text : List Char) :
    (munchNumeral first text).lexeme.Covers (first :: (munchNumeral first text).taken) := by
  have hbefore : ∀ c ∈ first :: text.takeWhile isDigit, isDigit c = true := by
    intro c hc
    rcases List.mem_cons.1 hc with rfl | hc
    · exact h
    · exact List.mem_takeWhile_imp hc
  unfold munchNumeral
  dsimp only
  split
  · next digit rest hstop =>
      split
      · next hdigit =>
          rw [← List.cons_append]
          refine .fraction (List.cons_ne_nil _ _) (List.cons_ne_nil _ _) hbefore ?_
          intro c hc
          rcases List.mem_cons.1 hc with rfl | hc
          · exact hdigit
          · exact List.mem_takeWhile_imp hc
      · exact .whole (List.cons_ne_nil _ _) hbefore
  · exact .whole (List.cons_ne_nil _ _) hbefore

/-- **What the reader takes is a slice of its class**, or one of the two flaws. -/
theorem munch_covers (first : Char) (text : List Char) :
    (munch first text).lexeme.Covers (first :: (munch first text).taken) ∨
      (first = '"' ∧ munch first text = ⟨.unterminated, text, []⟩) ∨
        (first ≠ '"' ∧ munch first text = ⟨.illegal first, [], text⟩) := by
  unfold munch
  -- In the order in which the classes are tried.
  split
  · next hp => exact .inl (.mark (mem_marks_of_punctuation hp))
  · next hc => exact .inl (munchComparison_covers hc text)
  · split
    · next h =>
        subst h
        exact .inl (munchSlash_covers text)
    split
    · next h =>
        subst h
        exact .inl (.hashed fun hin => mem_takeWhile_of_bne hin rfl)
    split
    · next h =>
        simp only [Bool.or_eq_true, decide_eq_true_eq, or_assoc] at h
        exact .inl (.blank h)
    split
    · next h =>
        subst h
        exact .inl .lineEnd
    split
    · next h =>
        subst h
        unfold munchString
        dsimp only
        split
        · next hstop =>
            refine .inr (.inl ⟨rfl, ?_⟩)
            rw [List.takeWhile_eq_self_iff.2 (List.dropWhile_eq_nil_iff.1 hstop)]
        · next quote rest hstop =>
            obtain rfl := eq_of_dropWhile_bne hstop
            exact .inl (.quoted fun hin => mem_takeWhile_of_bne hin rfl)
    · next hq =>
        split
        · next h => exact .inl (munchNumeral_covers h text)
        split
        · next h => exact .inl (.word h fun c hc => List.mem_takeWhile_imp hc)
        · exact .inr (.inr ⟨hq, rfl⟩)

/-- **The reader takes the piece at the front of the text.** -/
theorem foremost_munch (first : Char) (text : List Char) :
    Foremost (munch first text).lexeme (first :: (munch first text).taken)
      (munch first text).rest := by
  have htiles : (munch first text).taken ++ (munch first text).rest = text := munch_tiles first text
  -- A slice of a class at the front of the text is what the reader takes, or a part of it.
  have hahead : ∀ (other : Lexeme) (ahead : List Char), other.Covers ahead →
      ahead <+: first :: text →
        ahead.length ≤ (munch first text).taken.length + 1 ∧
          ¬ (munch first text).lexeme.IsFlaw := by
    intro other ahead hc hprefix
    obtain ⟨first', others, rfl⟩ := List.exists_cons_of_ne_nil hc.ne_nil
    obtain ⟨rfl, rest, rfl⟩ := List.cons_prefix_cons.1 hprefix
    obtain ⟨htaken, hflaw⟩ := hc.munch_append rest
    exact ⟨Nat.succ_le_succ htaken.length_le, hflaw⟩
  rcases munch_covers first text with h | ⟨rfl, h⟩ | ⟨hq, h⟩
  · refine .longest h fun other ahead hc hprefix => ?_
    rw [List.cons_append, htiles] at hprefix
    exact (hahead other ahead hc hprefix).1
  · rw [h] at hahead ⊢
    exact .unterminated fun other ahead hc hprefix => (hahead other ahead hc hprefix).2 trivial
  · rw [h] at hahead ⊢
    exact .illegal hq fun other ahead hc hprefix => (hahead other ahead hc hprefix).2 trivial

/-- **The piece at the front of a text is the one that the reader takes.** -/
theorem Foremost.munch_eq {lexeme : Lexeme} {slice rest : List Char}
    (h : Foremost lexeme slice rest) :
    ∃ first others, slice = first :: others ∧
      munch first (others ++ rest) = ⟨lexeme, others, rest⟩ := by
  cases h with
  | longest hc hmax =>
      obtain ⟨first, others, rfl⟩ := List.exists_cons_of_ne_nil hc.ne_nil
      refine ⟨first, others, rfl, ?_⟩
      obtain ⟨htaken, hflaw⟩ := hc.munch_append rest
      have htiles := munch_tiles first (others ++ rest)
      have hread := munch_covers first (others ++ rest)
      generalize munch first (others ++ rest) = found at htaken hflaw htiles hread
      obtain ⟨read, taken, left⟩ := found
      dsimp only at htaken hflaw htiles hread
      -- The reader takes at least the slice, and what it takes is a slice of a class as well.
      rcases hread with hread | ⟨-, hread⟩ | ⟨-, hread⟩
      · have hlength : taken.length + 1 ≤ others.length + 1 :=
          hmax read (first :: taken) hread ⟨left, congrArg (first :: ·) htiles⟩
        obtain rfl := htaken.eq_of_length (Nat.le_antisymm htaken.length_le (by omega))
        obtain rfl := List.append_cancel_left htiles
        rw [hread.unique hc]
      · cases hread
        exact absurd trivial hflaw
      · cases hread
        exact absurd trivial hflaw
  | @unterminated text hnone =>
      refine ⟨'"', text, rfl, ?_⟩
      rw [List.append_nil]
      rcases munch_covers '"' text with h | ⟨-, h⟩ | ⟨hq, -⟩
      · refine absurd ⟨(munch '"' text).rest, ?_⟩ (hnone _ _ h)
        rw [List.cons_append, munch_tiles]
      · exact h
      · exact absurd rfl hq
  | @illegal c rest hq hnone =>
      refine ⟨c, [], rfl, ?_⟩
      rcases munch_covers c rest with h | ⟨rfl, -⟩ | ⟨-, h⟩
      · refine absurd ⟨(munch c rest).rest, ?_⟩ (hnone _ _ h)
        rw [List.cons_append, munch_tiles]
      · exact absurd rfl hq
      · exact h

end LoxLang
