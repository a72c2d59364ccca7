/-
Lexemes: the slices that a source text falls into.

A lexeme is the longest piece at the front of the remaining text that belongs to one lexical class.
The classes are told apart by the first character, so reading a lexeme means looking at that
character and taking as many of the following ones as the class allows.

A text is a row of Unicode scalar values.  The surrogates, code points that are of use in pairs only,
are no characters, so a text in which one of them stands alone is no source text here.

Main definitions:

* `LoxLang.isDigit`, `LoxLang.isLetter`, `LoxLang.isWordChar` — the characters of numerals and words;
* `LoxLang.Lexeme` — what a slice is;
* `LoxLang.Munch` — a lexeme with the characters it takes and the characters it leaves;
* `LoxLang.munch` — the lexeme at the front of a text that is not empty;
* `LoxLang.Lexeme.endLine` — the line that a lexeme ends on.

Main results:

* `LoxLang.munch_tiles` — a lexeme and what it leaves are the text;
* `LoxLang.munch_rest_length_le` — what is left is not longer than what followed the first character;
* `LoxLang.munch_induction` — induction along the lexemes of a text.
-/

import LoxLang.Token.Kind

set_option relaxedAutoImplicit false
set_option autoImplicit false

namespace LoxLang

/-! ### Characters -/

/-- A decimal digit of ASCII. -/
def isDigit (c : Char) : Bool := '0' ≤ c && c ≤ '9'

/-- A letter of ASCII or the underscore. -/
def isLetter (c : Char) : Bool := ('a' ≤ c && c ≤ 'z') || ('A' ≤ c && c ≤ 'Z') || c == '_'

/-- A character that may stand in a word after the first. -/
def isWordChar (c : Char) : Bool := isLetter c || isDigit c

/-! ### Lexemes -/

/-- What a slice of a source text is. -/
inductive Lexeme where
  /-- Punctuation or an operator. -/
  | mark (kind : TokenKind)
  /-- A comment up to the end of its line. -/
  | comment
  /-- A blank that does not end a line. -/
  | blank
  | lineEnd
  /-- A string and the text between its quotes. -/
  | quoted (text : List Char)
  /-- A string that runs into the end of the text. -/
  | unterminated
  /-- A numeral without a fraction. -/
  | whole
  /-- The digits before and after the point. -/
  | fraction (before after : List Char)
  /-- A reserved word or a name. -/
  | word
  /-- A character that begins nothing. -/
  | illegal (c : Char)
  deriving DecidableEq, Repr

/-- A lexeme, the characters it takes after its first one, and the characters it leaves. -/
structure Munch where
  lexeme : Lexeme
  taken : List Char
  rest : List Char

/-- Punctuation that is a token on its own. -/
def punctuation? : Char → Option TokenKind
  | '(' => some .leftParen
  | ')' => some .rightParen
  | '\x7b' => some .leftBrace
  | '\x7d' => some .rightBrace
  | ',' => some .comma
  | '.' => some .dot
  | '-' => some .minus
  | '+' => some .plus
  | ';' => some .semicolon
  | '*' => some .star
  | _ => none

/-- Operators that may be followed by an equals sign: the kind without it and the kind with it. -/
def comparison? : Char → Option (TokenKind × TokenKind)
  | '!' => some (.bang, .bangEqual)
  | '=' => some (.equal, .equalEqual)
  | '<' => some (.less, .lessEqual)
  | '>' => some (.greater, .greaterEqual)
  | _ => none

/-- The characters up to the first that fails the test, and the others. -/
def Munch.spanning (lexeme : Lexeme) (test : Char → Bool) (text : List Char) : Munch :=
  ⟨lexeme, text.takeWhile test, text.dropWhile test⟩

/-- A comment ends in front of the line end. -/
def munchComment (text : List Char) : Munch := Munch.spanning .comment (· != '\n') text

/-- A string goes on to the next quote. -/
def munchString (text : List Char) : Munch :=
  let inside := text.takeWhile (· != '"')
  match text.dropWhile (· != '"') with
  | [] => ⟨.unterminated, inside, []⟩
  | quote :: rest => ⟨.quoted inside, inside ++ [quote], rest⟩

/-- A numeral goes on over digits, and over a point only if a digit follows the point. -/
def munchNumeral (first : Char) (text : List Char) : Munch :=
  let before := text.takeWhile isDigit
  match text.dropWhile isDigit with
  | '.' :: digit :: rest =>
      if isDigit digit then
        let after := digit :: rest.takeWhile isDigit
        ⟨.fraction (first :: before) after, before ++ '.' :: after, rest.dropWhile isDigit⟩
      else
        ⟨.whole, before, '.' :: digit :: rest⟩
  | rest => ⟨.whole, before, rest⟩

/-- An operator takes an equals sign that follows it. -/
def munchComparison (kinds : TokenKind × TokenKind) : List Char → Munch
  | '=' :: rest => ⟨.mark kinds.2, ['='], rest⟩
  | text => ⟨.mark kinds.1, [], text⟩

/-- A slash stands alone unless a second one makes it a comment. -/
def munchSlash : List Char → Munch
  | '/' :: rest =>
      let comment := munchComment rest
      ⟨comment.lexeme, '/' :: comment.taken, comment.rest⟩
  | text => ⟨.mark .slash, [], text⟩

/-- The lexeme that begins with the given character. -/
def munch (first : Char) (text : List Char) : Munch :=
  match punctuation? first, comparison? first with
  | some kind, _ => ⟨.mark kind, [], text⟩
  | none, some kinds => munchComparison kinds text
  | none, none =>
      if first = '/' then munchSlash text
      else if first = '#' then munchComment text
      else if first = ' ' || first = '\r' || first = '\t' then ⟨.blank, [], text⟩
      else if first = '\n' then ⟨.lineEnd, [], text⟩
      else if first = '"' then munchString text
      else if isDigit first then munchNumeral first text
      else if isLetter first then Munch.spanning .word isWordChar text
      else ⟨.illegal first, [], text⟩

/-! ### Lines -/

/-- The line on which a string ends whose characters behind the opening quote begin on the given one:
each line end in front of the closing quote is counted as it is passed. -/
def stringEndLine (line : Int) : List Char → Int
  | [] => line
  | c :: text =>
      if c = '"' then line
      else if c = '\n' then stringEndLine (line + 1) text
      else stringEndLine line text

/-- The line on which a lexeme ends that begins on the given one and takes the given characters after
its first one.  Only a line end and a string count lines. -/
def Lexeme.endLine (line : Int) (taken : List Char) : Lexeme → Int
  | .lineEnd => line + 1
  | .quoted _ | .unterminated => stringEndLine line taken
  | .mark _ | .comment | .blank | .whole | .fraction _ _ | .word | .illegal _ => line

/-! ### Lexemes tile the text -/

theorem munchComment_tiles (text : List Char) :
    (munchComment text).taken ++ (munchComment text).rest = text :=
  List.takeWhile_append_dropWhile

theorem munchString_tiles (text : List Char) :
    (munchString text).taken ++ (munchString text).rest = text := by
  unfold munchString
  have split : text.takeWhile (· != '"') ++ text.dropWhile (· != '"') = text :=
    List.takeWhile_append_dropWhile
  dsimp only
  split
  · next stop => rw [stop] at split; exact split
  · next quote rest stop => rw [stop] at split; simpa using split

theorem munchNumeral_tiles (first : Char) (text : List Char) :
    (munchNumeral first text).taken ++ (munchNumeral first text).rest = text := by
  unfold munchNumeral
  have split : text.takeWhile isDigit ++ text.dropWhile isDigit = text :=
    List.takeWhile_append_dropWhile
  dsimp only
  split
  · next digit rest stop =>
      rw [stop] at split
      split
      · simpa [List.takeWhile_append_dropWhile] using split
      · exact split
  · exact split

theorem munchComparison_tiles (kinds : TokenKind × TokenKind) (text : List Char) :
    (munchComparison kinds text).taken ++ (munchComparison kinds text).rest = text := by
  unfold munchComparison
  split <;> rfl

theorem munchSlash_tiles (text : List Char) :
    (munchSlash text).taken ++ (munchSlash text).rest = text := by
  unfold munchSlash
  split
  · next rest => simp [munchComment_tiles]
  · rfl

/-- A lexeme and what it leaves are the text. -/
theorem munch_tiles (first : Char) (text : List Char) :
    (munch first text).taken ++ (munch first text).rest = text := by
  unfold munch
  split
  · rfl
  · exact munchComparison_tiles _ _
  · split
    · exact munchSlash_tiles text
    split
    · exact munchComment_tiles text
    split
    · rfl
    split
    · rfl
    split
    · exact munchString_tiles text
    split
    · exact munchNumeral_tiles first text
    split
    · exact List.takeWhile_append_dropWhile
    · rfl

theorem munch_rest_length_le (first : Char) (text : List Char) :
    (munch first text).rest.length ≤ text.length := by
  have tiles := congrArg List.length (munch_tiles first text)
  rw [List.length_append] at tiles
  omega

/-- What holds of the empty text, and of a text if it holds of what its first lexeme leaves, holds of
every text. -/
@[elab_as_elim]
theorem munch_induction {motive : List Char → Prop} (nil : motive [])
    (cons : ∀ first text, motive (munch first text).rest → motive (first :: text)) :
    ∀ text, motive text
  | [] => nil
  | first :: text => cons first text (munch_induction nil cons (munch first text).rest)
termination_by text => text.length
decreasing_by exact Nat.lt_succ_of_le (munch_rest_length_le first text)

end LoxLang
