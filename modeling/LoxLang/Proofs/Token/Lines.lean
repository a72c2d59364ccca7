/-
**The lines of tokens and errors.**

Lines are counted at line ends and inside strings only, and yet every lexeme ends as many lines down as
there are line feeds in its slice, since the others have none.  So every step ends on the line that the
line feeds up to its end lead to, in whatever lexemes they stand.  A token carries the line of its end; a character that begins nothing is no
line feed, so its error carries the line of the place in front of it; and a string that is never closed
goes on to the end of the source, so its error carries the line of that end.

Main definitions:

* `LoxLang.lineBehind` — the line behind a text;
* `LoxLang.textOf` — the text that steps lead through;
* `LoxLang.Emission.OnItsLine` — **what stands on its line**.

Main results:

* `LoxLang.scanSteps_split` — where a step stands, and with which lexeme;
* `LoxLang.textOf_scanSteps` — the steps lead through the whole text;
* `LoxLang.scan_lines` — **all tokens and errors of a scan stand on their lines**.
-/

import LoxLang.Proofs.Token.LineBreak

set_option relaxedAutoImplicit false
set_option autoImplicit false

namespace LoxLang

/-! ### Lines of places in a text -/

/-- The line behind a text that begins on the first line. -/
def lineBehind (text : List Char) : Int := 1 + text.count '\n'

/-- The text that steps lead through. -/
def textOf (steps : List ScanStep) : List Char := (steps.map ScanStep.slice).flatten

theorem textOf_cons (step : ScanStep) (steps : List ScanStep) :
    textOf (step :: steps) = step.slice ++ textOf steps := by
  rw [textOf, List.map_cons, List.flatten_cons, textOf]

theorem textOf_append (steps others : List ScanStep) :
    textOf (steps ++ others) = textOf steps ++ textOf others := by
  rw [textOf, List.map_append, List.flatten_append, textOf, textOf]

/-- What the slice of the source yields that stands behind the given text is on its line: a token on
that of the end of its lexeme, a character that begins nothing on its own, and a string that is never
closed on that of the end of the source, to which it goes on. -/
inductive Emission.OnItsLine (source : String) (front slice : List Char) : Emission → Prop where
  | nothing : OnItsLine source front slice .nothing
  | token {token : Token} (hlexeme : token.lexeme = String.ofList slice)
      (hline : token.line = lineBehind (front ++ slice)) :
      OnItsLine source front slice (.token token)
  | unexpected {c : Char} (hslice : slice = [c]) :
      OnItsLine source front slice (.error ⟨lineBehind front, .unexpectedCharacter c⟩)
  | unterminated (hend : front ++ slice = source.toList) :
      OnItsLine source front slice (.error ⟨lineBehind source.toList, .unterminatedString⟩)

/-! ### Where a step stands -/

/-- **A step among others** is that of the lexeme behind the text that the steps in front of it lead
through, and begins on the line that they lead to.  The induction is on the lexemes of the text. -/
theorem scanSteps_split {line : Int} {text : List Char} {before after : List ScanStep}
    {step : ScanStep} (h : scanSteps line text = before ++ step :: after) :
    ∃ first rest, text = textOf before ++ first :: rest ∧
      step = scanStep (line + (textOf before).count '\n') first (munch first rest) := by
  induction text using munch_induction generalizing line before with
  | nil =>
      rw [scanSteps_nil] at h
      have hlength := congrArg List.length h
      simp at hlength
  | cons first text ih =>
      rw [scanSteps_cons] at h
      cases before with
      | nil =>
          -- The step is the first, and nothing stands in front of it.
          refine ⟨first, text, rfl, ?_⟩
          have hstep : step = scanStep line first (munch first text) := by
            split at h
            · exact (List.cons.inj h).1.symm
            · exact (List.cons.inj h).1.symm
          rw [hstep]
          simp [textOf]
      | cons other before =>
          split at h
          · -- The step that ends the steps has none behind it.
            have hlength := congrArg List.length h
            simp at hlength
          · obtain ⟨hother, hrest⟩ := List.cons.inj h
            obtain ⟨first', rest', htext, hstep⟩ := ih hrest
            have htiles := munch_tiles first text
            have hslice : other.slice = first :: (munch first text).taken := by
              rw [← hother]
              rfl
            have hline : (scanStep line first (munch first text)).line =
                line + other.slice.count '\n' := by
              rw [hslice, line_scanStep]
            refine ⟨first', rest', ?_, ?_⟩
            · rw [textOf_cons, hslice, List.append_assoc, ← htext, List.cons_append, htiles]
            · rw [hstep, hline, textOf_cons, List.count_append]
              congr 1
              omega

/-- The steps lead through the whole text, if none of them ends the reading. -/
theorem textOf_scanSteps {line : Int} {text : List Char}
    (h : ∀ step ∈ scanSteps line text, step.isLast = false) :
    textOf (scanSteps line text) = text := by
  induction text using munch_induction generalizing line with
  | nil =>
      rw [scanSteps_nil]
      rfl
  | cons first text ih =>
      have hlast := h _ (scanStep_mem_scanSteps line first text)
      rw [scanSteps_cons_of_not_isLast hlast] at h ⊢
      have hslice : (scanStep line first (munch first text)).slice =
          first :: (munch first text).taken := rfl
      have hrest := ih fun step hs => h step (List.mem_cons_of_mem _ hs)
      rw [textOf_cons, hrest, hslice, List.cons_append, munch_tiles]

/-! ### What a step yields -/

/-- An error comes from one of the two flaws, and carries the line that the slice ends on. -/
theorem eq_of_emission_error {lexeme : Lexeme} {slice : List Char} {line : Int}
    {error : LexicalError} (h : lexeme.emission slice line = .error error) :
    (lexeme = .unterminated ∧ error = ⟨line, .unterminatedString⟩) ∨
      ∃ c, lexeme = .illegal c ∧ error = ⟨line, .unexpectedCharacter c⟩ := by
  cases lexeme with
  | whole =>
      simp only [Lexeme.emission] at h
      split at h
      · cases h
      · cases h
  | unterminated =>
      cases h
      exact .inl ⟨rfl, rfl⟩
  | illegal c =>
      cases h
      exact .inr ⟨c, rfl, rfl⟩
  | _ => cases h

/-- A string that is never closed takes the text to its end. -/
theorem munch_of_unterminated {first : Char} {text : List Char}
    (h : (munch first text).lexeme = .unterminated) : munch first text = ⟨.unterminated, text, []⟩ := by
  rcases munch_covers first text with hc | ⟨-, hm⟩ | ⟨-, hm⟩
  · rw [h] at hc
    cases hc
  · exact hm
  · rw [hm] at h
    cases h

/-- A character that begins nothing is taken alone, and it ends no line. -/
theorem munch_of_illegal {first c : Char} {text : List Char}
    (h : (munch first text).lexeme = .illegal c) :
    first = c ∧ c ≠ '\n' ∧ munch first text = ⟨.illegal c, [], text⟩ := by
  rcases munch_covers first text with hc | ⟨-, hm⟩ | ⟨-, hm⟩
  · rw [h] at hc
    cases hc
  · rw [hm] at h
    cases h
  · rw [hm] at h
    cases h
    refine ⟨rfl, ?_, hm⟩
    rintro rfl
    have hend : munch '\n' text = ⟨.lineEnd, [], text⟩ := rfl
    rw [hend] at hm
    cases hm

/-- **What a lexeme yields is on its line**, unless it ends the reading: the step lemma, for a lexeme
behind the given text. -/
theorem onItsLine_scanStep {source : String} {front rest : List Char} {first : Char}
    (hsource : source.toList = front ++ first :: rest) {step : ScanStep}
    (hstep : step = scanStep (lineBehind front) first (munch first rest))
    (hlast : step.isLast = false) : step.emission.OnItsLine source front step.slice := by
  have hslice : step.slice = first :: (munch first rest).taken := by
    rw [hstep]
    rfl
  have hemission : step.emission =
      (munch first rest).lexeme.emission step.slice (lineBehind (front ++ step.slice)) := by
    have hline : lineBehind (front ++ step.slice) = lineBehind front + step.slice.count '\n' := by
      unfold lineBehind
      rw [List.count_append]
      omega
    rw [hline, hslice, hstep, ← endLine_munch]
    rfl
  cases he : step.emission with
  | nothing => exact .nothing
  | token token =>
      rw [he] at hemission
      obtain ⟨hlexeme, hline⟩ := Lexeme.emission_eq_token hemission.symm
      exact .token hlexeme hline
  | error error =>
      rw [he] at hemission
      rcases eq_of_emission_error hemission.symm with ⟨hopen, rfl⟩ | ⟨c, hc, rfl⟩
      · have hwhole : front ++ step.slice = source.toList := by
          rw [hslice, munch_of_unterminated hopen, hsource]
        rw [hwhole]
        exact .unterminated hwhole
      · obtain ⟨rfl, hne, hm⟩ := munch_of_illegal hc
        rw [hm] at hslice
        -- The character itself is not counted, since it is no line feed.
        have hline : lineBehind (front ++ step.slice) = lineBehind front := by
          unfold lineBehind
          rw [hslice, List.count_append]
          simp [hne]
        rw [hline]
        exact .unexpected hslice
  | tooLong digits =>
      unfold ScanStep.isLast at hlast
      rw [he] at hlast
      cases hlast

/-! ### Scans -/

/-- **All tokens and errors of a scan stand on their lines**, if no integer numeral in the source is over
the limit.  The slices of the steps tile the source; what a step yields is on the line of its place; and
the token that ends the source carries the line behind the whole of it. -/
theorem scan_lines {source : String} (hshort : ∀ digits, ¬ OverLimit source digits) :
    (scan source).tokens = (scanSteps 1 source.toList).filterMap (·.emission.token?) ++
        [Token.endOfSource (lineBehind source.toList)] ∧
      (scan source).errors = (scanSteps 1 source.toList).filterMap (·.emission.error?) ∧
      ∀ before step after, scanSteps 1 source.toList = before ++ step :: after →
        source.toList = textOf before ++ step.slice ++ textOf after ∧
          step.emission.OnItsLine source (textOf before) step.slice := by
  have hlast : ∀ step ∈ scanSteps 1 source.toList, step.isLast = false :=
    fun step hs => isLast_eq_false (tooLong_eq_none hshort) hs
  refine ⟨?_, rfl, ?_⟩
  · have hend : lastLine 1 (scanSteps 1 source.toList) = lineBehind source.toList :=
      lastLine_scanSteps 1 source.toList hlast
    rw [← hend]
    rfl
  · intro before step after h
    obtain ⟨first, rest, hsource, hstep⟩ := scanSteps_split h
    have hmem : step ∈ scanSteps 1 source.toList := by
      rw [h]
      exact List.mem_append_right _ List.mem_cons_self
    refine ⟨?_, onItsLine_scanStep hsource hstep (hlast step hmem)⟩
    have htiles := textOf_scanSteps hlast
    rw [h, textOf_append, textOf_cons, ← List.append_assoc] at htiles
    exact htiles.symm

/-- Line feeds at the end of lines, of comments and in a string, a character that begins nothing behind
a carriage return, and a string that is never closed. -/
def linedSource : String := "a # \"x\n\"b\nc\" //\r\n\r@1.\n\"d\n"

/-- The lines of such a text. -/
theorem scan_lines_linedSource :
    (∀ digits, ¬ OverLimit linedSource digits) ∧
      (scan linedSource).tokens.map (fun token => (token.lexeme, token.line)) =
        [("a", 1), ("\"b\nc\"", 3), ("1", 4), (".", 4), ("", 6)] ∧
      (scan linedSource).errors = [⟨4, .unexpectedCharacter '@'⟩, ⟨6, .unterminatedString⟩] ∧
      ∃ before step, scanSteps 1 linedSource.toList = before ++ [step] ∧
        step.emission.OnItsLine linedSource (textOf before) step.slice := by
  have hshort : ∀ digits, ¬ OverLimit linedSource digits := not_overLimit (by decide +kernel)
  obtain ⟨htokens, herrors, hsteps⟩ := scan_lines hshort
  refine ⟨hshort, ?_, ?_, ?_⟩
  · rw [htokens]
    decide +kernel
  · rw [herrors]
    decide +kernel
  · have hne : scanSteps 1 linedSource.toList ≠ [] := by decide +kernel
    have hlast := (List.dropLast_concat_getLast hne).symm
    exact ⟨_, _, hlast, (hsteps _ _ _ hlast).2⟩

end LoxLang
