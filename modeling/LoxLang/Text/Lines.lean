/-
Lines of texts.

Main definitions:

* `LoxLang.Text.unifyLineEnds` — a carriage return, alone or before a line feed, becomes a line
  feed;
* `LoxLang.Text.lines` — the lines of an input, the last one even without an end;
* `LoxLang.Text.endLines` — lines, each with its end.
-/

set_option relaxedAutoImplicit false
set_option autoImplicit false

namespace LoxLang.Text

/-- Every line end as a line feed. -/
def unifyLineEnds : List Char → List Char
  | [] => []
  | '\r' :: '\n' :: rest => '\n' :: unifyLineEnds rest
  | '\r' :: rest => '\n' :: unifyLineEnds rest
  | c :: rest => c :: unifyLineEnds rest

/-- The lines of an input after the characters of an unfinished one, nearest first. -/
def linesFrom (unfinished : List Char) : List Char → List String
  | [] => if unfinished.isEmpty then [] else [String.ofList unfinished.reverse]
  | c :: rest =>
      if c = '\n' then String.ofList unfinished.reverse :: linesFrom [] rest
      else linesFrom (c :: unfinished) rest

/-- The lines of an input, without their ends. -/
def lines (input : String) : List String := linesFrom [] input.toList

/-- The lines as one text, each followed by a line feed. -/
def endLines (lines : List String) : String := String.join (lines.map (· ++ "\n"))

end LoxLang.Text
