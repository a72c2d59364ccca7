/-
**Scanning does not look across a line break.**

No lexeme but a string goes over a line feed, and a string that is closed does not go on behind its
quote.  So when the first of two texts leaves no string open, the lexemes of the two texts with a line
feed between them are those of the first, the line feed, and those of the second, which begins on the
line behind the last one of the first.

* `LoxLang.munch_append_newline` — one lexeme in front of a line feed;
* `LoxLang.scanSteps_add` — the line on which a text begins only counts the lines in it up;
* `LoxLang.scanSteps_append_newline` — the lexemes of two texts with a line feed between them;
* `LoxLang.scan_append_newline`, `LoxLang.scan_lineBreak` — **the tokens and errors of two texts with a
  line feed between them**.
-/

import LoxLang.Proofs.Syntax.Relabel
import LoxLang.Proofs.Token.OverLimit

set_option relaxedAutoImplicit false
set_option autoImplicit false

namespace LoxLang

/-! ### One lexeme -/

/-- What fails on a line feed stops there. -/
theorem takeWhile_append_newline {test : Char → Bool} (ht : test '\n' = false)
    (text rest : List Char) : (text ++ '\n' :: rest).takeWhile test = text.takeWhile test := by
  induction text with
  | nil => simp [ht]
  | cons c text ih =>
      rw [List.cons_append, List.takeWhile_cons, List.takeWhile_cons, ih]

theorem dropWhile_append_newline {test : Char → Bool} (ht : test '\n' = false)
    (text rest : List Char) :
    (text ++ '\n' :: rest).dropWhile test = text.dropWhile test ++ '\n' :: rest := by
  induction text with
  | nil => simp [ht]
  | cons c text ih =>
      rw [List.cons_append, List.dropWhile_cons, List.dropWhile_cons, ih]
      split <;> rfl

/-- What stops in a text stops there whatever follows. -/
theorem takeWhile_append_of_dropWhile {test : Char → Bool} {text : List Char} {c : Char}
    {left : List Char} (h : text.dropWhile test = c :: left) (rest : List Char) :
    (text ++ rest).takeWhile test = text.takeWhile test ∧
      (text ++ rest).dropWhile test = c :: (left ++ rest) := by
  induction text with
  | nil => simp at h
  | cons d text ih =>
      rw [List.cons_append, List.takeWhile_cons, List.takeWhile_cons, List.dropWhile_cons]
      rw [List.dropWhile_cons] at h
      cases hd : test d with
      | true =>
          simp only [hd, if_true] at h ⊢
          obtain ⟨htake, hdrop⟩ := ih h
          exact ⟨by rw [htake], hdrop⟩
      | false =>
          simp only [hd, Bool.false_eq_true, if_false, List.cons.injEq] at h ⊢
          obtain ⟨rfl, rfl⟩ := h
          exact ⟨trivial, rfl, rfl⟩

/-- The same lexeme, with more text behind it. -/
def Munch.followedBy (found : Munch) (rest : List Char) : Munch :=
  { found with rest := found.rest ++ rest }

theorem spanning_append_newline {test : Char → Bool} (ht : test '\n' = false) (lexeme : Lexeme)
    (text rest : List Char) :
    Munch.spanning lexeme test (text ++ '\n' :: rest) =
      (Munch.spanning lexeme test text).followedBy ('\n' :: rest) := by
  simp only [Munch.spanning, Munch.followedBy, takeWhile_append_newline ht,
    dropWhile_append_newline ht]

theorem munchComment_append_newline (text rest : List Char) :
    munchComment (text ++ '\n' :: rest) = (munchComment text).followedBy ('\n' :: rest) :=
  spanning_append_newline (by decide) _ text rest

theorem munchString_append {text : List Char} (h : (munchString text).lexeme ≠ .unterminated)
    (rest : List Char) :
    munchString (text ++ rest) = (munchString text).followedBy rest := by
  unfold munchString at h ⊢
  dsimp only at h ⊢
  cases hdrop : text.dropWhile (· != '"') with
  | nil => simp [hdrop] at h
  | cons quote left =>
      obtain ⟨htake', hdrop'⟩ := takeWhile_append_of_dropWhile hdrop rest
      rw [htake', hdrop']
      rfl

theorem munchNumeral_append_newline (first : Char) (text rest : List Char) :
    munchNumeral first (text ++ '\n' :: rest) =
      (munchNumeral first text).followedBy ('\n' :: rest) := by
  have hdigit : isDigit '\n' = false := by decide
  unfold munchNumeral
  dsimp only
  rw [takeWhile_append_newline hdigit, dropWhile_append_newline hdigit]
  generalize text.dropWhile isDigit = left
  rcases left with _ | ⟨c, left⟩
  · rfl
  by_cases hc : c = '.'
  · subst hc
    rcases left with _ | ⟨digit, left⟩
    · -- A point at the very end of the first text is followed by the line feed, which is no digit.
      simp [hdigit, Munch.followedBy]
    · cases hd : isDigit digit with
      | true =>
          simp [hd, Munch.followedBy, takeWhile_append_newline hdigit,
            dropWhile_append_newline hdigit]
      | false => simp [hd, Munch.followedBy]
  · simp [hc, Munch.followedBy]

theorem munchComparison_append_newline (kinds : TokenKind × TokenKind) (text rest : List Char) :
    munchComparison kinds (text ++ '\n' :: rest) =
      (munchComparison kinds text).followedBy ('\n' :: rest) := by
  unfold munchComparison
  rcases text with _ | ⟨c, text⟩
  · rfl
  · by_cases hc : c = '='
    · subst hc
      rfl
    · simp [hc, Munch.followedBy]

theorem munchSlash_append_newline (text rest : List Char) :
    munchSlash (text ++ '\n' :: rest) = (munchSlash text).followedBy ('\n' :: rest) := by
  unfold munchSlash
  rcases text with _ | ⟨c, text⟩
  · rfl
  · by_cases hc : c = '/'
    · subst hc
      simp [munchComment_append_newline, Munch.followedBy]
    · simp [hc, Munch.followedBy]

/-- **A lexeme in front of a line feed is what it is without it**, unless it is an open string. -/
theorem munch_append_newline {first : Char} {text : List Char}
    (h : (munch first text).lexeme ≠ .unterminated) (rest : List Char) :
    munch first (text ++ '\n' :: rest) = (munch first text).followedBy ('\n' :: rest) := by
  unfold munch at h ⊢
  split
  · rfl
  · exact munchComparison_append_newline _ text rest
  · next hp hc =>
      simp only [hp, hc] at h
      split
      · exact munchSlash_append_newline text rest
      split
      · exact munchComment_append_newline text rest
      split
      · rfl
      split
      · rfl
      split
      · next hq =>
          simp only [hq, if_true] at h
          exact munchString_append h _
      split
      · exact munchNumeral_append_newline first text rest
      split
      · exact spanning_append_newline (by decide) _ text rest
      · rfl

/-! ### The lexemes of a text -/

/-- The token or error, with its line changed. -/
def Emission.relabel (f : Int → Int) : Emission → Emission
  | .nothing => .nothing
  | .token found => .token (found.relabel f)
  | .error found => .error { found with line := f found.line }
  | .tooLong digits => .tooLong digits

/-- The step, with its line changed. -/
def ScanStep.relabel (f : Int → Int) (step : ScanStep) : ScanStep :=
  ⟨step.slice, f step.line, step.emission.relabel f⟩

theorem emission_relabel (f : Int → Int) (slice : List Char) (line : Int) (lexeme : Lexeme) :
    lexeme.emission slice (f line) = (lexeme.emission slice line).relabel f := by
  cases lexeme with
  | whole =>
      simp only [Lexeme.emission]
      split <;> rfl
  | _ => rfl

theorem scanStep_add (k line : Int) (first : Char) (found : Munch) :
    scanStep (line + k) first found = (scanStep line first found).relabel (· + k) := by
  unfold scanStep ScanStep.relabel
  dsimp only
  rw [endLine_add, emission_relabel (· + k)]

theorem isLast_relabel (f : Int → Int) (step : ScanStep) :
    (step.relabel f).isLast = step.isLast := by
  unfold ScanStep.isLast ScanStep.relabel
  cases step.emission <;> rfl

/-- **A text that begins some lines further down has the same lexemes, as many lines down.** -/
theorem scanSteps_add (k line : Int) (text : List Char) :
    scanSteps (line + k) text = (scanSteps line text).map (ScanStep.relabel (· + k)) := by
  induction text using munch_induction generalizing line with
  | nil => rw [scanSteps_nil, scanSteps_nil, List.map_nil]
  | cons first text ih =>
      rw [scanSteps_cons, scanSteps_cons, scanStep_add, isLast_relabel]
      split
      · rfl
      · rw [List.map_cons]
        exact congrArg _ (ih _)

/-- None of the lexemes is an open string, and none ends the reading. -/
def Closed (steps : List ScanStep) : Prop :=
  ∀ step ∈ steps, step.isLast = false ∧
    ∀ line, step.emission ≠ .error ⟨line, .unterminatedString⟩

/-- The lexeme of a step that is no open string is none. -/
theorem lexeme_ne_unterminated {line : Int} {first : Char} {found : Munch}
    (h : ∀ line', (scanStep line first found).emission ≠ .error ⟨line', .unterminatedString⟩) :
    found.lexeme ≠ .unterminated := by
  intro hl
  unfold scanStep at h
  rw [hl] at h
  exact h _ rfl

/-- The line feed that follows a text. -/
def newlineStep (line : Int) : ScanStep := ⟨['\n'], line + 1, .nothing⟩

theorem scanSteps_newline (line : Int) (text : List Char) :
    scanSteps line ('\n' :: text) = newlineStep line :: scanSteps (line + 1) text := by
  have hmunch : munch '\n' text = ⟨.lineEnd, [], text⟩ := by
    unfold munch
    simp [punctuation?, comparison?]
  rw [scanSteps_cons, hmunch]
  simp [scanStep, ScanStep.isLast, Lexeme.emission, Lexeme.endLine, newlineStep]

theorem lastLine_cons (line : Int) (step : ScanStep) (steps : List ScanStep) :
    lastLine line (step :: steps) = lastLine step.line steps := by
  unfold lastLine
  cases steps with
  | nil => rfl
  | cons other steps => rw [List.getLast?_cons_cons, List.getLast?_cons]

theorem lastLine_append_cons (line : Int) (step : ScanStep) (steps others : List ScanStep) :
    lastLine line (steps ++ step :: others) = lastLine step.line others := by
  unfold lastLine
  rw [List.getLast?_append, List.getLast?_cons]
  cases others.getLast? <;> rfl

/-- **The lexemes of two texts with a line feed between them**, if the first leaves no string open. -/
theorem scanSteps_append_newline (line : Int) (text text' : List Char)
    (hc : Closed (scanSteps line text)) :
    scanSteps line (text ++ '\n' :: text') =
      scanSteps line text ++ newlineStep (lastLine line (scanSteps line text)) ::
        scanSteps (lastLine line (scanSteps line text) + 1) text' := by
  induction text using munch_induction generalizing line with
  | nil =>
      rw [scanSteps_nil]
      exact scanSteps_newline line text'
  | cons first text ih =>
      obtain ⟨hlast, hopen⟩ := hc _ (scanStep_mem_scanSteps line first text)
      rw [scanSteps_cons_of_not_isLast hlast] at hc ⊢
      -- The lexeme in front is closed, so it is the same with the other text behind it.
      have hmunch := munch_append_newline (lexeme_ne_unterminated hopen) text'
      have hsame : scanStep line first (munch first (text ++ '\n' :: text')) =
          scanStep line first (munch first text) := by
        rw [hmunch]
        rfl
      rw [List.cons_append, scanSteps_cons_of_not_isLast (by rw [hsame, hlast]), hsame,
        lastLine_cons, hmunch, List.cons_append]
      exact congrArg _ (ih _ fun step hs => hc step (List.mem_cons_of_mem _ hs))

/-! ### The tokens of a text -/

/-- The number of line feeds in a text. -/
def newlines (source : String) : Int := source.toList.count '\n'

/-- The lexemes end on the line that the line feeds of the text lead to. -/
theorem lastLine_scanSteps (line : Int) (text : List Char)
    (hc : ∀ step ∈ scanSteps line text, step.isLast = false) :
    lastLine line (scanSteps line text) = line + text.count '\n' := by
  induction text using munch_induction generalizing line with
  | nil =>
      rw [scanSteps_nil]
      simp [lastLine]
  | cons first text ih =>
      have hlast := hc _ (scanStep_mem_scanSteps line first text)
      rw [scanSteps_cons_of_not_isLast hlast] at hc ⊢
      rw [lastLine_cons, ih _ fun step hs => hc step (List.mem_cons_of_mem _ hs)]
      have htiles : first :: text =
          (first :: (munch first text).taken) ++ (munch first text).rest := by
        rw [List.cons_append, munch_tiles]
      rw [htiles, List.count_append, line_scanStep]
      omega

/-- A scan that is not ended by a numeral and leaves no string open. -/
theorem closed_of_scan {source : String} (hl : (scan source).tooLong = none)
    (hu : ∀ error ∈ (scan source).errors, error.cause ≠ .unterminatedString) :
    Closed (scanSteps 1 source.toList) := by
  intro step hs
  constructor
  · exact isLast_eq_false hl hs
  · intro line he
    refine hu ⟨line, .unterminatedString⟩ (List.mem_filterMap.2 ⟨step, hs, ?_⟩) rfl
    rw [he]
    rfl

theorem token?_relabel (f : Int → Int) (step : ScanStep) :
    (step.relabel f).emission.token? = step.emission.token?.map (Token.relabel f) := by
  unfold ScanStep.relabel
  cases step.emission <;> rfl

theorem error?_relabel (f : Int → Int) (step : ScanStep) :
    (step.relabel f).emission.error? =
      step.emission.error?.map fun error => { error with line := f error.line } := by
  unfold ScanStep.relabel
  cases step.emission <;> rfl

theorem tooLong?_relabel (f : Int → Int) (step : ScanStep) :
    (step.relabel f).tooLong? = step.tooLong? := by
  unfold ScanStep.relabel ScanStep.tooLong?
  cases step.emission <;> rfl

theorem lastLine_relabel (f : Int → Int) (line : Int) (steps : List ScanStep) :
    lastLine (f line) (steps.map (ScanStep.relabel f)) = f (lastLine line steps) := by
  unfold lastLine
  rw [List.getLast?_map]
  cases steps.getLast? <;> rfl

/-- **The tokens and the errors of two texts with a line feed between them**, if no string is left
open in the first: those of the first without its end, and those of the second as many lines down. -/
theorem scan_append_newline {s t : String} (hl : (scan s).tooLong = none)
    (hu : ∀ error ∈ (scan s).errors, error.cause ≠ .unterminatedString) :
    (scan (s ++ "\n" ++ t)).tokens =
        (scan s).tokens.dropLast ++ (scan t).tokens.map (Token.relabel (· + (newlines s + 1))) ∧
      (scan (s ++ "\n" ++ t)).errors =
        (scan s).errors ++ (scan t).errors.map (fun error =>
          { error with line := error.line + (newlines s + 1) }) ∧
      (scan (s ++ "\n" ++ t)).tooLong = (scan t).tooLong := by
  have hclosed := closed_of_scan hl hu
  have hline : lastLine 1 (scanSteps 1 s.toList) = 1 + newlines s :=
    lastLine_scanSteps _ _ fun step hs => (hclosed step hs).1
  have hlist : (s ++ "\n" ++ t).toList = s.toList ++ '\n' :: t.toList := by simp
  -- The steps of the one text, the line feed, and the steps of the other, so many lines down.
  have hsteps : scanSteps 1 (s ++ "\n" ++ t).toList =
      scanSteps 1 s.toList ++ newlineStep (1 + newlines s) ::
        (scanSteps 1 t.toList).map (ScanStep.relabel (· + (newlines s + 1))) := by
    have hbehind : 1 + newlines s + 1 = 1 + (newlines s + 1) := by omega
    rw [hlist, scanSteps_append_newline _ _ _ hclosed, hline, hbehind,
      scanSteps_add]
  have hlast : lastLine 1 (scanSteps 1 (s ++ "\n" ++ t).toList) =
      lastLine 1 (scanSteps 1 t.toList) + (newlines s + 1) := by
    have hbehind : (newlineStep (1 + newlines s)).line = 1 + (newlines s + 1) := by
      simp only [newlineStep]
      omega
    rw [hsteps, lastLine_append_cons, hbehind, lastLine_relabel (· + (newlines s + 1))]
  have hnone : (scanSteps 1 s.toList).findSome? ScanStep.tooLong? = none := hl
  refine ⟨?_, ?_, ?_⟩
  · unfold scan
    dsimp only
    rw [hlast, hsteps, List.dropLast_concat, List.filterMap_append, List.filterMap_cons,
      List.map_append, List.map_filterMap, List.filterMap_map, List.append_assoc]
    simp only [Function.comp_def, token?_relabel]
    rfl
  · unfold scan
    dsimp only
    rw [hsteps, List.filterMap_append, List.filterMap_cons, List.map_filterMap, List.filterMap_map]
    simp only [Function.comp_def, error?_relabel]
    rfl
  · unfold scan
    dsimp only
    rw [hsteps, List.findSome?_append, hnone, List.findSome?_cons, List.findSome?_map]
    simp only [Function.comp_def, tooLong?_relabel]
    rfl

/-- **Scanning is compositional across a line break.**  If no integer numeral in two texts is over the
limit and no string is left open in the first, then neither is one over the limit in the two with a line
feed between them; their tokens are those of the first without its end and those of the second, their
errors and reports are those of the first and those of the second, and what is of the second is as many
lines further down as line feeds stand in front of it. -/
theorem scan_lineBreak {s t : String} (hs : ∀ digits, ¬ OverLimit s digits)
    (ht : ∀ digits, ¬ OverLimit t digits)
    (hclosed : ∀ error ∈ (scan s).errors, error.cause ≠ .unterminatedString) :
    (∀ digits, ¬ OverLimit (s ++ "\n" ++ t) digits) ∧
      (∃ tokens, (scan s).tokens = tokens ++ [Token.endOfSource (1 + newlines s)] ∧
        (scan (s ++ "\n" ++ t)).tokens =
          tokens ++ (scan t).tokens.map fun token =>
            { token with line := token.line + (1 + newlines s) }) ∧
      (scan (s ++ "\n" ++ t)).errors =
        (scan s).errors ++ (scan t).errors.map (fun error =>
          { error with line := error.line + (1 + newlines s) }) ∧
      (scan (s ++ "\n" ++ t)).errors.map LexicalError.report =
        (scan s).errors.map LexicalError.report ++
          ((scan t).errors.map LexicalError.report).map (fun report =>
            { report with line := report.line + (1 + newlines s) }) := by
  have hnone := tooLong_eq_none hs
  obtain ⟨htokens, herrors, hlong⟩ := scan_append_newline (t := t) hnone hclosed
  rw [Int.add_comm (newlines s) 1] at htokens herrors
  refine ⟨?_, ⟨(scan s).tokens.dropLast, ?_, htokens⟩, herrors, ?_⟩
  · refine not_overLimit ?_
    rw [hlong]
    exact tooLong_eq_none ht
  · have hend : lastLine 1 (scanSteps 1 s.toList) = 1 + newlines s :=
      lastLine_scanSteps 1 s.toList fun step hstep => isLast_eq_false hnone hstep
    unfold scan
    dsimp only
    rw [hend, List.dropLast_concat]
  · rw [herrors, List.map_append, List.map_map, List.map_map]
    rfl

/-- A text with a character that begins nothing and a closed string over two lines, which ends in a point
behind a digit. -/
def upperSource : String := "@\"a\nb\" 1."

/-- A text that begins with a digit and ends in an open string. -/
def lowerSource : String := "5 #c\n\"d"

/-- The first of the texts with the second on the next line. -/
theorem scan_lineBreak_upperSource :
    (∀ digits, ¬ OverLimit upperSource digits) ∧ (∀ digits, ¬ OverLimit lowerSource digits) ∧
      (∀ error ∈ (scan upperSource).errors, error.cause ≠ .unterminatedString) ∧
      (scan (upperSource ++ "\n" ++ lowerSource)).tokens.map
          (fun token => (token.lexeme, token.line)) =
        [("\"a\nb\"", 2), ("1", 2), (".", 2), ("5", 3), ("", 4)] ∧
      (scan (upperSource ++ "\n" ++ lowerSource)).errors =
        [⟨1, .unexpectedCharacter '@'⟩, ⟨4, .unterminatedString⟩] := by
  have hs : ∀ digits, ¬ OverLimit upperSource digits := not_overLimit (by decide +kernel)
  have ht : ∀ digits, ¬ OverLimit lowerSource digits := not_overLimit (by decide +kernel)
  have hclosed : ∀ error ∈ (scan upperSource).errors, error.cause ≠ .unterminatedString := by
    decide +kernel
  obtain ⟨-, ⟨tokens, hfirst, htokens⟩, herrors, -⟩ := scan_lineBreak hs ht hclosed
  have hfront : tokens = (scan upperSource).tokens.dropLast := by
    rw [hfirst, List.dropLast_concat]
  refine ⟨hs, ht, hclosed, ?_, ?_⟩
  · rw [htokens, hfront]
    decide +kernel
  · rw [herrors]
    decide +kernel

end LoxLang
