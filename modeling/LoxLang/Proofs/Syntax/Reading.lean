/-
**Reading a text, and two texts in a row.**

A text is read without a report exactly if no numeral in it is too long, every lexeme is one of the
language, and its tokens are a program.  As neither lexemes nor declarations look across a line break,
the program of two such texts with a line feed between them is that of the first followed by that of the
second, whose lines are counted on from the first.

* `LoxLang.endsOnce_scan` — what the parser is handed;
* `LoxLang.parse_scan`, `LoxLang.read_program_eq_ok_iff` — **the parser answers a program for every text**;
* `LoxLang.read_eq_ok_iff` — texts read without a report;
* `LoxLang.read_append_newline` — **two texts with a line feed between them**.
-/

import LoxLang.Proofs.Syntax.Acceptance
import LoxLang.Proofs.Syntax.WellFormed
import LoxLang.Proofs.Token.LineBreak
import LoxLang.Proofs.Token.Tokens
import LoxLang.Syntax.Reading

set_option relaxedAutoImplicit false
set_option autoImplicit false

namespace LoxLang

/-- **The tokens of a text end once.** -/
theorem endsOnce_scan (source : String) : EndsOnce (scan source).tokens := by
  refine ⟨_, _, scan_tokens_eq source, rfl, ?_⟩
  intro token ht
  exact Token.isEnd_eq_false (wellMade_of_mem_scanSteps ht).notEnd

/-- **The parser answers a program for the tokens of every text**, whatever errors it records. -/
theorem parse_scan (source : String) : ∃ program t, parse (scan source).tokens = .ok program t := by
  refine parse_eq_ok ⟨_, List.mem_append_right _ (List.mem_singleton_self _), rfl⟩ ?_
  intro token ht hlacks
  rw [scan_tokens_eq] at ht
  rcases List.mem_append.1 ht with ht | ht
  · have hmade := wellMade_of_mem_scanSteps ht
    obtain ⟨hk | hk, hnone⟩ := hlacks
    · obtain ⟨n, hn⟩ := hmade.number hk
      rw [hnone] at hn
      cases hn
    · obtain ⟨text, hs⟩ := hmade.string hk
      rw [hnone] at hs
      cases hs
  · rw [List.mem_singleton.1 ht] at hlacks
    rcases hlacks.1 with hk | hk <;> cases hk

/-- A text has a program unless a numeral in it is too long; it is the one that the parser answers. -/
theorem read_program_eq_ok_iff {source : String} {program : List Stmt} :
    (read source).program = .ok program ↔
      (scan source).tooLong = none ∧ ∃ t, parse (scan source).tokens = .ok program t := by
  obtain ⟨found, t, hp⟩ := parse_scan source
  unfold read readTokens
  dsimp only
  rw [hp]
  cases (scan source).tooLong with
  | some digits => simp
  | none => simp [eq_comm]

/-- Tokens that end once are read without a report exactly if they are a program. -/
theorem readTokens_eq_ok_iff {tokens : List Token} (h : EndsOnce tokens) {ss : List Stmt} :
    readTokens tokens = ⟨[], .ok ss⟩ ↔ Grammar.Program tokens ss := by
  constructor
  · intro hr
    unfold readTokens at hr
    cases hp : parse tokens with
    | ok program state =>
        rw [hp] at hr
        simp only [Reading.mk.injEq, List.map_eq_nil_iff, Except.ok.injEq] at hr
        obtain ⟨hc, rfl⟩ := hr
        exact program_of_parse h hp hc
    | gaveUp state => simp [hp] at hr
    | fault fault state => simp [hp] at hr
    | outOfFuel => simp [hp] at hr
  · intro hg
    obtain ⟨ending, -, hp⟩ := parse_of_lenient hg.lenient
    unfold readTokens
    rw [hp]
    rfl

/-- **Texts read without a report.** -/
theorem read_eq_ok_iff {source : String} {ss : List Stmt} :
    read source = ⟨[], .ok ss⟩ ↔
      (scan source).tooLong = none ∧ (scan source).errors = [] ∧
        Grammar.Program (scan source).tokens ss := by
  rw [← readTokens_eq_ok_iff (endsOnce_scan source)]
  unfold read
  dsimp only
  cases hl : (scan source).tooLong with
  | some digits => simp
  | none =>
      generalize readTokens (scan source).tokens = reading
      obtain ⟨reports, program⟩ := reading
      simp [and_assoc]

/-- A reading that comes to a program without a report. -/
theorem read_eq_of_isOk {source : String} (hr : (read source).reports = [])
    (hp : (read source).program.isOk = true) :
    read source = ⟨[], .ok ((read source).program.toOption.getD [])⟩ := by
  generalize read source = reading at hr hp
  obtain ⟨reports, program⟩ := reading
  cases hr
  cases program with
  | error fault => cases hp
  | ok program => rfl

/-- **The program of two texts with a line feed between them.** -/
theorem read_append_newline {s t : String} {ss us : List Stmt} (hs : read s = ⟨[], .ok ss⟩)
    (ht : read t = ⟨[], .ok us⟩) :
    read (s ++ "\n" ++ t) =
      ⟨[], .ok (ss ++ Stmt.relabelAll (· + (newlines s + 1)) us)⟩ := by
  obtain ⟨hl, he, hp⟩ := read_eq_ok_iff.1 hs
  obtain ⟨hl', he', hp'⟩ := read_eq_ok_iff.1 ht
  have hopen : ∀ error ∈ (scan s).errors, error.cause ≠ .unterminatedString := by
    rw [he]
    exact nofun
  obtain ⟨htokens, herrors, hlong⟩ := scan_append_newline (t := t) hl hopen
  refine read_eq_ok_iff.2 ⟨by rw [hlong, hl'], by rw [herrors, he, he']; rfl, ?_⟩
  rw [htokens]
  generalize (scan s).tokens = tokens at hp
  generalize (scan t).tokens = tokens' at hp'
  obtain ⟨hd, -⟩ := hp
  obtain ⟨hd', hend⟩ := hp'
  rw [List.dropLast_concat, List.map_append, ← List.append_assoc]
  exact .intro (hd.append (hd'.relabel _)) hend

end LoxLang
