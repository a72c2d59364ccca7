/-
Quoted texts.

In a dump a text stands between quotes: apostrophes, or double quotes when the text holds an
apostrophe and no double quote.  The quote and the backslash are escaped, line feed, carriage
return and tab have their letters, and every other character that is not printable is written by
its code point in hexadecimal, with two, four or eight digits.

Main definitions:

* `LoxLang.Text.quoteMark` — the quote around a text;
* `LoxLang.Text.escape` — what stands for one character;
* `LoxLang.Text.quoted` — the quoted text.
-/

import LoxLang.Text.Printable

set_option relaxedAutoImplicit false
set_option autoImplicit false

namespace LoxLang.Text

/-- The quote around a text. -/
def quoteMark (text : List Char) : Char :=
  if text.contains '\'' && !text.contains '"' then '"' else '\''

/-- The last `width` hexadecimal digits of a code point. -/
def hexadecimal (width code : Nat) : List Char :=
  let digits := Nat.toDigits 16 code
  List.replicate (width - digits.length) '0' ++ digits

/-- A character by its code point. -/
def codeEscape (code : Nat) : List Char :=
  if code < 0x100 then '\\' :: 'x' :: hexadecimal 2 code
  else if code < 0x10000 then '\\' :: 'u' :: hexadecimal 4 code
  else '\\' :: 'U' :: hexadecimal 8 code

/-- What stands for a character between the given quotes. -/
def escape (mark c : Char) : List Char :=
  if c = mark || c = '\\' then ['\\', c]
  else if c = '\n' then ['\\', 'n']
  else if c = '\r' then ['\\', 'r']
  else if c = '\t' then ['\\', 't']
  else if isPrintable c then [c]
  else codeEscape c.toNat

/-- The text between quotes. -/
def quoted (text : String) : String :=
  let mark := quoteMark text.toList
  String.ofList (mark :: (text.toList.flatMap (escape mark) ++ [mark]))

end LoxLang.Text
