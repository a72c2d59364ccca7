/-
**Carriage returns in front of line feeds.**

A line that ends with a carriage return and a line feed is scanned like one that ends with the line feed
alone.  In front of a line feed a carriage return is a blank, or the last character of a comment; it
stops words, numerals and operators just where the line feed behind it would; and neither yields anything
or counts a line.  Only a string that is closed keeps it, in its text.  So taking the carriage returns
away changes nothing, if each of them stands in front of a line feed and none in a closed string.

Main definitions:

* `LoxLang.ReturnsPaired` — each carriage return stands in front of a line feed;
* `LoxLang.StringsWithoutReturns` — none of them stands in a closed string;
* `LoxLang.withoutReturns` — the text without them;
* `LoxLang.StepsAlike` — **steps that yield the same on the same lines**, up to blanks.

Main results:

* `LoxLang.unifyLineEnds_eq` — unifying the line ends of such a text takes them away;
* `LoxLang.munch_withoutReturns` — one lexeme;
* `LoxLang.stepsAlike_withoutReturns` — the steps through a text;
* `LoxLang.scan_unifyLineEnds` — **the scan of a text**.
-/

import LoxLang.Proofs.Token.LineBreak
import LoxLang.Text.Lines

set_option relaxedAutoImplicit false
set_option autoImplicit false

namespace LoxLang

/-! ### Texts -/

/-- Each carriage return stands in front of a line feed. -/
def ReturnsPaired (text : List Char) : Prop :=
  ∀ front rest, text = front ++ '\r' :: rest → ∃ behind, rest = '\n' :: behind

/-- The text without its carriage returns. -/
def withoutReturns (text : List Char) : List Char := text.filter (· != '\r')

theorem ReturnsPaired.of_append (front : List Char) {text : List Char}
    (h : ReturnsPaired (front ++ text)) : ReturnsPaired text := by
  intro between rest ht
  refine h (front ++ between) rest ?_
  rw [ht, List.append_assoc]

theorem returnsPaired_cons_iff {c : Char} {text : List Char} :
    ReturnsPaired (c :: text) ↔ (c = '\r' → text.head? = some '\n') ∧ ReturnsPaired text := by
  constructor
  · intro h
    refine ⟨?_, h.of_append [c]⟩
    rintro rfl
    obtain ⟨behind, rfl⟩ := h [] text rfl
    rfl
  · rintro ⟨hhead, htail⟩ front rest ht
    rcases front with _ | ⟨d, front⟩
    · obtain ⟨rfl, rfl⟩ := List.cons.inj ht
      obtain ⟨behind, hbehind⟩ := List.head?_eq_some_iff.1 (hhead rfl)
      exact ⟨behind, hbehind⟩
    · exact htail front rest (List.cons.inj ht).2

instance ReturnsPaired.decidable : (text : List Char) → Decidable (ReturnsPaired text)
  | [] => .isTrue fun _ _ h => by simp at h
  | _ :: text =>
      have := ReturnsPaired.decidable text
      decidable_of_iff' _ returnsPaired_cons_iff

theorem ReturnsPaired.tail {c : Char} {text : List Char} (h : ReturnsPaired (c :: text)) :
    ReturnsPaired text := (returnsPaired_cons_iff.1 h).2

theorem ReturnsPaired.behind {text : List Char} (h : ReturnsPaired ('\r' :: text)) :
    ∃ behind, text = '\n' :: behind := h [] text rfl

theorem ReturnsPaired.dropWhile {text : List Char} (h : ReturnsPaired text) (test : Char → Bool) :
    ReturnsPaired (text.dropWhile test) := by
  have hsplit : text.takeWhile test ++ text.dropWhile test = text := List.takeWhile_append_dropWhile
  rw [← hsplit] at h
  exact h.of_append _

@[simp] theorem withoutReturns_nil : withoutReturns [] = [] := rfl

@[simp] theorem withoutReturns_return (text : List Char) :
    withoutReturns ('\r' :: text) = withoutReturns text := rfl

theorem withoutReturns_cons {c : Char} (h : c ≠ '\r') (text : List Char) :
    withoutReturns (c :: text) = c :: withoutReturns text :=
  List.filter_cons_of_pos (bne_iff_ne.2 h)

theorem withoutReturns_eq_self {text : List Char} (h : '\r' ∉ text) : withoutReturns text = text := by
  refine List.filter_eq_self.2 fun c hc => bne_iff_ne.2 ?_
  rintro rfl
  exact h hc

theorem withoutReturns_append (text rest : List Char) :
    withoutReturns (text ++ rest) = withoutReturns text ++ withoutReturns rest :=
  List.filter_append ..

/-- **Unifying the line ends takes the carriage returns away**, by induction on the text. -/
theorem unifyLineEnds_eq {text : List Char} (h : ReturnsPaired text) :
    Text.unifyLineEnds text = withoutReturns text := by
  induction text with
  | nil => rfl
  | cons c text ih =>
      have hrest := ih h.tail
      by_cases hc : c = '\r'
      · subst hc
        obtain ⟨behind, rfl⟩ := h.behind
        rw [withoutReturns_return, ← hrest]
        simp [Text.unifyLineEnds]
      · rw [withoutReturns_cons hc, ← hrest]
        simp [Text.unifyLineEnds, hc]

/-! ### One lexeme -/

/-- A test that goes on over a carriage return if it goes on over a line feed stops at the same place
without the carriage returns: where it stops at one, it stops at the line feed behind it. -/
theorem takeWhile_withoutReturns (test : Char → Bool) (ht : test '\n' = true → test '\r' = true)
    {text : List Char} (h : ReturnsPaired text) :
    (withoutReturns text).takeWhile test = withoutReturns (text.takeWhile test) ∧
      (withoutReturns text).dropWhile test = withoutReturns (text.dropWhile test) := by
  induction text with
  | nil => exact ⟨rfl, rfl⟩
  | cons c text ih =>
      obtain ⟨htake, hdrop⟩ := ih h.tail
      by_cases hc : c = '\r'
      · subst hc
        cases hr : test '\r' with
        | true => simp [hr, htake, hdrop]
        | false =>
            have hn : test '\n' = false := by
              cases hn : test '\n' with
              | true => rw [ht hn] at hr; cases hr
              | false => rfl
            obtain ⟨behind, rfl⟩ := h.behind
            have hne : ('\n' : Char) ≠ '\r' := by decide
            simp [hr, hn, withoutReturns_cons hne]
      · rw [withoutReturns_cons hc]
        cases hp : test c with
        | true => simp [hp, htake, hdrop, withoutReturns_cons hc]
        | false => simp [hp, withoutReturns_cons hc]

/-- The same lexeme, without the carriage returns in what it takes and in what it leaves. -/
def Munch.withoutReturns (found : Munch) : Munch :=
  ⟨found.lexeme, LoxLang.withoutReturns found.taken, LoxLang.withoutReturns found.rest⟩

variable {text : List Char}

theorem spanning_withoutReturns {test : Char → Bool} (ht : test '\n' = true → test '\r' = true)
    (h : ReturnsPaired text) (lexeme : Lexeme) :
    Munch.spanning lexeme test (withoutReturns text) =
      (Munch.spanning lexeme test text).withoutReturns := by
  obtain ⟨htake, hdrop⟩ := takeWhile_withoutReturns _ ht h
  rw [Munch.spanning, htake, hdrop]
  rfl

theorem munchComment_withoutReturns (h : ReturnsPaired text) :
    munchComment (withoutReturns text) = (munchComment text).withoutReturns :=
  spanning_withoutReturns (by decide) h .comment

/-- A closed string keeps its text if no carriage return is in it. -/
theorem munchString_withoutReturns (h : ReturnsPaired text)
    (hs : ∀ inside, (munchString text).lexeme = .quoted inside → '\r' ∉ inside) :
    munchString (withoutReturns text) = (munchString text).withoutReturns := by
  obtain ⟨htake, hdrop⟩ := takeWhile_withoutReturns (· != '"') (by decide) h
  unfold munchString at hs ⊢
  dsimp only at hs ⊢
  rw [htake, hdrop]
  cases hstop : text.dropWhile (· != '"') with
  | nil => rfl
  | cons quote rest =>
      rw [hstop] at hs
      have hinside := withoutReturns_eq_self (hs _ rfl)
      obtain rfl := eq_of_dropWhile_bne hstop
      have hquote : ('"' : Char) ≠ '\r' := by decide
      simp only [Munch.withoutReturns, withoutReturns_cons hquote, withoutReturns_append, hinside,
        withoutReturns_nil]

/-- No digit is a carriage return. -/
theorem withoutReturns_digits (text : List Char) :
    withoutReturns (text.takeWhile isDigit) = text.takeWhile isDigit := by
  refine withoutReturns_eq_self fun hr => ?_
  exact absurd (List.mem_takeWhile_imp hr) (by decide)

/-- A numeral stops at a carriage return where it stops at the line feed behind it, at its point too. -/
theorem munchNumeral_withoutReturns (first : Char) (h : ReturnsPaired text) :
    munchNumeral first (withoutReturns text) = (munchNumeral first text).withoutReturns := by
  have hdigit : isDigit '\n' = true → isDigit '\r' = true := by decide
  have hpoint : ('.' : Char) ≠ '\r' := by decide
  have hline : ('\n' : Char) ≠ '\r' := by decide
  obtain ⟨htake, hdrop⟩ := takeWhile_withoutReturns isDigit hdigit h
  have hleft := h.dropWhile isDigit
  have hbefore := withoutReturns_digits text
  unfold munchNumeral
  dsimp only
  rw [htake, hdrop, hbefore]
  generalize text.dropWhile isDigit = left at hleft
  -- What stands behind the digits: nothing, a carriage return, a point, or anything else.
  rcases left with _ | ⟨c, left⟩
  · simp [Munch.withoutReturns, hbefore]
  by_cases hreturn : c = '\r'
  · subst hreturn
    obtain ⟨behind, rfl⟩ := hleft.behind
    simp [Munch.withoutReturns, hbefore, withoutReturns_cons hline]
  by_cases hc : c = '.'
  · subst hc
    rw [withoutReturns_cons hpoint]
    rcases left with _ | ⟨digit, rest⟩
    · simp [Munch.withoutReturns, hbefore, withoutReturns_cons hpoint]
    by_cases hr : digit = '\r'
    · -- Neither the carriage return behind the point nor the line feed behind that is a digit.
      subst hr
      obtain ⟨behind, rfl⟩ := hleft.tail.behind
      simp [Munch.withoutReturns, hbefore, withoutReturns_cons hline, withoutReturns_cons hpoint,
        show isDigit '\n' = false by decide, show isDigit '\r' = false by decide]
    · rw [withoutReturns_cons hr]
      cases hd : isDigit digit with
      | true =>
          obtain ⟨htake', hdrop'⟩ := takeWhile_withoutReturns isDigit hdigit hleft.tail.tail
          have hafter := withoutReturns_digits rest
          simp [hd, htake', hdrop', hafter, hbefore, Munch.withoutReturns, withoutReturns_append,
            withoutReturns_cons hpoint, withoutReturns_cons hr]
      | false => simp [hd, Munch.withoutReturns, hbefore, withoutReturns_cons hpoint,
          withoutReturns_cons hr]
  · rw [withoutReturns_cons hreturn]
    simp [hc, Munch.withoutReturns, hbefore, withoutReturns_cons hreturn]

theorem munchComparison_withoutReturns (kinds : TokenKind × TokenKind) (h : ReturnsPaired text) :
    munchComparison kinds (withoutReturns text) = (munchComparison kinds text).withoutReturns := by
  unfold munchComparison
  rcases text with _ | ⟨c, text⟩
  · rfl
  by_cases hreturn : c = '\r'
  · subst hreturn
    obtain ⟨behind, rfl⟩ := h.behind
    rfl
  rw [withoutReturns_cons hreturn]
  by_cases hc : c = '='
  · subst hc
    rfl
  · simp [hc, Munch.withoutReturns, withoutReturns_cons hreturn]

theorem munchSlash_withoutReturns (h : ReturnsPaired text) :
    munchSlash (withoutReturns text) = (munchSlash text).withoutReturns := by
  unfold munchSlash
  rcases text with _ | ⟨c, text⟩
  · rfl
  by_cases hreturn : c = '\r'
  · subst hreturn
    obtain ⟨behind, rfl⟩ := h.behind
    rfl
  rw [withoutReturns_cons hreturn]
  by_cases hc : c = '/'
  · subst hc
    simp [munchComment_withoutReturns h.tail, Munch.withoutReturns, withoutReturns_cons hreturn]
  · simp [hc, Munch.withoutReturns, withoutReturns_cons hreturn]

/-- **A lexeme is what it is without the carriage returns behind its first character**, unless it is a
closed string with one in it. -/
theorem munch_withoutReturns {first : Char} (h : ReturnsPaired text)
    (hs : ∀ inside, (munch first text).lexeme = .quoted inside → '\r' ∉ inside) :
    munch first (withoutReturns text) = (munch first text).withoutReturns := by
  unfold munch at hs ⊢
  split
  · rfl
  · exact munchComparison_withoutReturns _ h
  · next hp hc =>
      simp only [hp, hc] at hs
      split
      · exact munchSlash_withoutReturns h
      split
      · exact munchComment_withoutReturns h
      split
      · rfl
      split
      · rfl
      split
      · next hq =>
          simp only [hq, if_true] at hs
          exact munchString_withoutReturns h hs
      split
      · exact munchNumeral_withoutReturns first h
      split
      · exact spanning_withoutReturns (by decide) h .word
      · rfl

/-- A string counts no line at a carriage return. -/
theorem stringEndLine_withoutReturns (line : Int) (text : List Char) :
    stringEndLine line (withoutReturns text) = stringEndLine line text := by
  induction text generalizing line with
  | nil => rfl
  | cons c text ih =>
      by_cases hc : c = '\r'
      · subst hc
        rw [withoutReturns_return, ih]
        simp [stringEndLine]
      · rw [withoutReturns_cons hc]
        simp only [stringEndLine, ih]

/-- A lexeme ends on the same line without the carriage returns in what it takes. -/
theorem endLine_withoutReturns (line : Int) (taken : List Char) (lexeme : Lexeme) :
    lexeme.endLine line (withoutReturns taken) = lexeme.endLine line taken := by
  cases lexeme with
  | quoted text | unterminated => exact stringEndLine_withoutReturns line taken
  | mark kind | comment | blank | lineEnd | whole | fraction before after | word | illegal c => rfl

/-- A carriage return stands in no mark, numeral or word. -/
theorem Lexeme.Covers.return_not_mem {lexeme : Lexeme} {slice : List Char} (h : lexeme.Covers slice)
    (hsolid : lexeme.IsSolid) : '\r' ∉ slice :=
  h.not_mem hsolid (by decide) (by decide)

/-- What a lexeme yields does not depend on the carriage returns in its slice. -/
theorem emission_withoutReturns {lexeme : Lexeme} {slice : List Char}
    (h : lexeme.Covers slice ∨ lexeme.IsFlaw)
    (hs : ∀ inside, lexeme = .quoted inside → '\r' ∉ inside) (line : Int) :
    lexeme.emission (withoutReturns slice) line = lexeme.emission slice line := by
  cases lexeme with
  | comment | blank | lineEnd | unterminated | illegal c => rfl
  | mark kind | whole | fraction before after | word =>
      have hcovers := h.resolve_right not_false
      rw [withoutReturns_eq_self (hcovers.return_not_mem trivial)]
  | quoted text =>
      have hinside : '\r' ∉ '"' :: (text ++ ['"']) := by simp [hs text rfl]
      cases h.resolve_right not_false
      rw [withoutReturns_eq_self hinside]

/-! ### The steps through a text -/

/-- The steps yield the same on the same lines, from the given line on.  Their slices may differ, and the
first may have blanks in between that the others lack. -/
inductive StepsAlike : Int → List ScanStep → List ScanStep → Prop where
  | nil {line : Int} : StepsAlike line [] []
  | blank {line : Int} {slice : List Char} {steps others : List ScanStep}
      (h : StepsAlike line steps others) :
      StepsAlike line (⟨slice, line, .nothing⟩ :: steps) others
  | cons {line last : Int} {slice slice' : List Char} {emission : Emission}
      {steps others : List ScanStep} (h : StepsAlike last steps others) :
      StepsAlike line (⟨slice, last, emission⟩ :: steps) (⟨slice', last, emission⟩ :: others)

/-- Such steps yield the same tokens, the same errors, and whatever else is read off what they yield. -/
theorem StepsAlike.filterMap_eq {β : Type} {line : Int} {steps others : List ScanStep}
    (h : StepsAlike line steps others) (f : Emission → Option β) (hf : f .nothing = none) :
    steps.filterMap (fun step => f step.emission) =
      others.filterMap (fun step => f step.emission) := by
  induction h with
  | nil => rfl
  | @blank line slice steps others h ih =>
      rw [List.filterMap_cons]
      dsimp only
      rw [hf, ih]
  | @cons line last slice slice' emission steps others h ih =>
      rw [List.filterMap_cons, List.filterMap_cons, ih]

theorem StepsAlike.lastLine_eq {line : Int} {steps others : List ScanStep}
    (h : StepsAlike line steps others) : lastLine line steps = lastLine line others := by
  induction h with
  | nil => rfl
  | blank h ih => rw [lastLine_cons, ih]
  | cons h ih => rw [lastLine_cons, lastLine_cons, ih]

/-- **One step**, which yields the same on the same line without the carriage returns behind its first
character. -/
theorem scanStep_withoutReturns (line : Int) {first : Char} (hf : first ≠ '\r')
    (hs : ∀ inside, (munch first text).lexeme = .quoted inside → '\r' ∉ inside) :
    ∃ slice, scanStep line first (munch first text).withoutReturns =
      ⟨slice, (scanStep line first (munch first text)).line,
        (scanStep line first (munch first text)).emission⟩ := by
  have hslice : first :: withoutReturns (munch first text).taken =
      withoutReturns (first :: (munch first text).taken) := (withoutReturns_cons hf _).symm
  have hread : (munch first text).lexeme.Covers (first :: (munch first text).taken) ∨
      (munch first text).lexeme.IsFlaw := by
    rcases munch_covers first text with h | ⟨-, h⟩ | ⟨-, h⟩
    · exact .inl h
    · rw [h]
      exact .inr trivial
    · rw [h]
      exact .inr trivial
  refine ⟨first :: withoutReturns (munch first text).taken, ?_⟩
  unfold scanStep Munch.withoutReturns
  dsimp only
  rw [hslice, endLine_withoutReturns, emission_withoutReturns hread hs]

/-- No closed string among the pieces of the text has a carriage return in it. -/
def StringsWithoutReturns (text : List Char) : Prop :=
  ∀ pieces, Falls text pieces → ∀ piece ∈ pieces, ∀ inside, piece.lexeme = .quoted inside →
    '\r' ∉ inside

theorem StringsWithoutReturns.first {first : Char} (h : StringsWithoutReturns (first :: text))
    (inside : List Char) (hl : (munch first text).lexeme = .quoted inside) : '\r' ∉ inside := by
  obtain ⟨pieces, hrest⟩ := exists_falls (munch first text).rest
  exact h _ hrest.of_rest _ List.mem_cons_self inside hl

theorem StringsWithoutReturns.rest {first : Char} (h : StringsWithoutReturns (first :: text)) :
    StringsWithoutReturns (munch first text).rest := by
  intro pieces hfalls piece hp
  exact h _ hfalls.of_rest piece (List.mem_cons_of_mem _ hp)

/-- A closed string is its text between quotes. -/
theorem slice_of_munch_quoted {first : Char} {inside : List Char}
    (h : (munch first text).lexeme = .quoted inside) :
    first :: (munch first text).taken = '"' :: (inside ++ ['"']) := by
  rcases munch_covers first text with hc | ⟨-, hm⟩ | ⟨-, hm⟩
  · rw [h] at hc
    generalize first :: (munch first text).taken = slice at hc
    cases hc
    rfl
  · rw [hm] at h
    cases h
  · rw [hm] at h
    cases h

/-- It is enough to look at the slices of the steps through a text that is read to its end. -/
theorem stringsWithoutReturns_of_steps (line : Int) {text : List Char}
    (h : ∀ step ∈ scanSteps line text,
      step.isLast = false ∧ (step.slice.head? = some '"' → '\r' ∉ step.slice)) :
    StringsWithoutReturns text := by
  induction text using munch_induction generalizing line with
  | nil =>
      intro pieces hfalls
      rw [hfalls.unique .nil]
      exact fun piece hp => absurd hp List.not_mem_nil
  | cons first text ih =>
      obtain ⟨hlast, hslice⟩ := h _ (scanStep_mem_scanSteps line first text)
      rw [scanSteps_cons_of_not_isLast hlast] at h
      intro pieces hfalls piece hp inside hl
      obtain ⟨others, rfl, hothers⟩ := falls_cons hfalls
      rcases List.mem_cons.1 hp with rfl | hp
      · have hquoted := slice_of_munch_quoted hl
        have hopens : (first :: (munch first text).taken).head? = some '"' := by
          rw [hquoted]
          rfl
        have hnone : '\r' ∉ first :: (munch first text).taken := hslice hopens
        rw [hquoted] at hnone
        exact fun hr => hnone (List.mem_cons_of_mem _ (List.mem_append_left _ hr))
      · exact ih _ (fun step hstep => h step (List.mem_cons_of_mem _ hstep)) _ hothers piece hp inside hl

/-- **The steps through a text without its carriage returns** yield what those through the text yield.
The induction is on the lexemes of the text: a carriage return is a blank that the other text lacks, and
any other lexeme has its like there. -/
theorem stepsAlike_withoutReturns {line : Int} {text : List Char} (hr : ReturnsPaired text)
    (hs : StringsWithoutReturns text) :
    StepsAlike line (scanSteps line text) (scanSteps line (withoutReturns text)) := by
  induction text using munch_induction generalizing line with
  | nil =>
      rw [withoutReturns_nil, scanSteps_nil]
      exact .nil
  | cons first text ih =>
      have htiles := munch_tiles first text
      have hrest : ReturnsPaired (munch first text).rest := by
        have htail := hr.tail
        rw [← htiles] at htail
        exact htail.of_append _
      -- A carriage return between lexemes is a blank that the second text does not have.
      by_cases hf : first = '\r'
      · subst hf
        have hmunch : munch '\r' text = ⟨.blank, [], text⟩ := rfl
        have hstep : scanStep line '\r' (munch '\r' text) = ⟨['\r'], line, .nothing⟩ := by
          rw [hmunch]
          rfl
        have hgoes : (scanStep line '\r' (munch '\r' text)).isLast = false := by
          rw [hstep]
          rfl
        rw [withoutReturns_return, scanSteps_cons_of_not_isLast hgoes, hstep]
        exact .blank (ih hrest hs.rest)
      · have hmunch := munch_withoutReturns hr.tail hs.first
        obtain ⟨slice, hstep⟩ := scanStep_withoutReturns line hf hs.first
        have hlast : (scanStep line first (munch first text).withoutReturns).isLast =
            (scanStep line first (munch first text)).isLast := by
          rw [hstep]
          rfl
        rw [withoutReturns_cons hf, scanSteps_cons, scanSteps_cons, hmunch, hlast, hstep]
        split
        · exact .cons .nil
        · exact .cons (ih hrest hs.rest)

/-! ### Scans -/

/-- **Line ends do not matter to a scan.**  If each carriage return of a source stands in front of a line
feed and none in a closed string, the source with its line ends unified has the same scan: the same tokens
on the same lines, the same errors, and the same numeral over the limit or none. -/
theorem scan_unifyLineEnds {source : String} (hr : ReturnsPaired source.toList)
    (hs : StringsWithoutReturns source.toList) :
    scan (String.ofList (Text.unifyLineEnds source.toList)) = scan source := by
  have hsteps : StepsAlike 1 (scanSteps 1 source.toList)
      (scanSteps 1 (withoutReturns source.toList)) := stepsAlike_withoutReturns hr hs
  have hlong : ∀ steps : List ScanStep, steps.findSome? ScanStep.tooLong? =
      (steps.filterMap fun step => ScanStep.tooLong? ⟨[], 1, step.emission⟩).head? := by
    intro steps
    rw [List.head?_filterMap]
    rfl
  unfold scan
  rw [String.toList_ofList, unifyLineEnds_eq hr]
  dsimp only
  rw [hlong, hlong, hsteps.filterMap_eq Emission.token? rfl, hsteps.filterMap_eq Emission.error? rfl,
    hsteps.filterMap_eq (fun emission => ScanStep.tooLong? ⟨[], 1, emission⟩) rfl,
    hsteps.lastLine_eq]

end LoxLang
