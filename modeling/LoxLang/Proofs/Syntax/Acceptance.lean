/-
**The parser decides the grammar.**

`LoxLang/Proofs/Syntax/ParserSound.lean` says that what the parser accepts is a program, and
`LoxLang/Proofs/Syntax/ParserComplete.lean` that every program is accepted.  Together, on tokens that
end once: the parser answers a tree without an error exactly if the tokens are a program that stands for
this tree.  So no tokens are two programs.

* `LoxLang.EndsOnce` — what a scanner hands to the parser;
* `LoxLang.parse_eq_ok_iff_program` — **the parser accepts the programs, and answers their trees**;
* `LoxLang.Grammar.Program.unique` — the grammar is unambiguous.
-/

import LoxLang.Proofs.Syntax.ParserComplete
import LoxLang.Proofs.Syntax.ParserSound

set_option relaxedAutoImplicit false
set_option autoImplicit false

namespace LoxLang

/-- The last token ends the source text, and no other does. -/
def EndsOnce (tokens : List Token) : Prop :=
  ∃ body ending, tokens = body ++ [ending] ∧ ending.isEnd = true ∧
    ∀ token ∈ body, token.isEnd = false

/-- What stands in front of the first end is all but the end. -/
theorem EndsOnce.eq_of_append {tokens ts rest : List Token} {ending : Token} (h : EndsOnce tokens)
    (ht : tokens = ts ++ ending :: rest) (he : ending.isEnd = true) : rest = [] := by
  obtain ⟨body, last, rfl, -, hbody⟩ := h
  rcases List.eq_nil_or_concat rest with hnil | ⟨others, other, rfl⟩
  · exact hnil
  · have hsplit : body ++ [last] = (ts ++ ending :: others) ++ [other] := by
      rw [ht]
      simp
    have hmem : ending ∈ body := by
      rw [(List.append_inj' hsplit rfl).1]
      simp
    rw [hbody ending hmem] at he
    simp at he

/-- What the parser accepts is a program. -/
theorem program_of_parse {tokens : List Token} {ss : List Stmt} {t : ParserState}
    (h : EndsOnce tokens) (hp : parse tokens = .ok ss t) (hc : t.errors = []) :
    Grammar.Program tokens ss := by
  obtain ⟨⟨ts, hts, hd⟩, ending, rest, hr, he⟩ := Parser.program_sound hp hc
  have hts : tokens = ts ++ ending :: rest := by
    rw [← hr]
    exact hts
  obtain rfl := h.eq_of_append hts he
  rw [hts]
  exact .intro hd (Token.isEnd_iff.1 he)

/-- **The parser accepts exactly the programs of the grammar, and answers their trees.** -/
theorem parse_eq_ok_iff_program {tokens : List Token} (h : EndsOnce tokens) {ss : List Stmt} :
    (∃ t, parse tokens = .ok ss t ∧ t.errors = []) ↔ Grammar.Program tokens ss := by
  constructor
  · rintro ⟨t, hp, hc⟩
    exact program_of_parse h hp hc
  · intro hg
    obtain ⟨ending, -, hp⟩ := parse_of_lenient hg.lenient
    exact ⟨_, hp, rfl⟩

/-- The tokens of `if (a) if (b) c; else d;`. -/
def danglingElse : List Token :=
  [⟨.ifWord, "if", none, 1⟩, ⟨.leftParen, "(", none, 1⟩, ⟨.identifier, "a", none, 1⟩,
    ⟨.rightParen, ")", none, 1⟩, ⟨.ifWord, "if", none, 1⟩, ⟨.leftParen, "(", none, 1⟩,
    ⟨.identifier, "b", none, 1⟩, ⟨.rightParen, ")", none, 1⟩, ⟨.identifier, "c", none, 1⟩,
    ⟨.semicolon, ";", none, 1⟩, ⟨.elseWord, "else", none, 1⟩, ⟨.identifier, "d", none, 1⟩,
    ⟨.semicolon, ";", none, 1⟩, Token.endOfSource 1]

theorem endsOnce_danglingElse : EndsOnce danglingElse :=
  ⟨danglingElse.dropLast, Token.endOfSource 1, rfl, rfl, by decide⟩

/-- The `else` belongs to the second `if`. -/
theorem program_danglingElse :
    EndsOnce danglingElse ∧ Grammar.Program danglingElse
      [.branch (.lookup ⟨.identifier, "a", none, 1⟩)
        (.branch (.lookup ⟨.identifier, "b", none, 1⟩)
          (.expression (.lookup ⟨.identifier, "c", none, 1⟩))
          (some (.expression (.lookup ⟨.identifier, "d", none, 1⟩)))) none] :=
  ⟨endsOnce_danglingElse, (parse_eq_ok_iff_program endsOnce_danglingElse).1 ⟨_, rfl, rfl⟩⟩

namespace Grammar

/-- **The grammar is unambiguous**: tokens are a program in one way at most. -/
theorem Program.unique {tokens : List Token} {ss ss' : List Stmt} (h : Program tokens ss)
    (h' : Program tokens ss') : ss = ss' := by
  obtain ⟨ending, -, hp⟩ := parse_of_lenient h.lenient
  obtain ⟨ending', -, hp'⟩ := parse_of_lenient h'.lenient
  rw [hp] at hp'
  simp only [Reply.ok.injEq] at hp'
  exact hp'.1

end Grammar

end LoxLang
