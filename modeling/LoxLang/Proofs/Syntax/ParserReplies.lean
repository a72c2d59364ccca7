/-
**When a parser answers.**

The small parsers of `LoxLang/Syntax/ParserState.lean` read at most one token.  This module says for each
of them when it answers a value, in which state, and what the tokens ahead were then; and that two
parsers in a row answer a value exactly if both do.  Proofs about the rules of the parser open a rule
with `LoxLang.Parser.bind_eq_ok` and cite one of these facts for each step.

* `LoxLang.Parser.bind_eq_ok`, `LoxLang.Parser.bind_of_ok` — one parser after the other;
* `LoxLang.Parser.accept_eq_ok`, `expect_eq_ok`, `check_eq_ok`, `peek_eq_ok`, `note_eq_ok`,
  `nested_eq_ok` — the inversions;
* `LoxLang.Parser.accept_of_test`, `accept_of_not_test`, `expect_of_kind`, `check_of_cons`,
  `advance_of_cons`, `peek_of_cons` — reading a token that is known.
-/

import LoxLang.Syntax.Parser

set_option relaxedAutoImplicit false
set_option autoImplicit false

namespace LoxLang

/-- A token whose kind is not that of the end does not end the source text. -/
theorem Token.isEnd_eq_false {token : Token} (h : token.kind ≠ .endOfSource) :
    token.isEnd = false := by
  simpa [Token.isEnd] using h

theorem Token.isEnd_iff {token : Token} : token.isEnd = true ↔ token.kind = .endOfSource := by
  simp [Token.isEnd]

namespace Parser

variable {α β : Type}

/-! ### One parser after the other -/

theorem bind_apply (p : Parser α) (f : α → Parser β) (s : ParserState) :
    (p >>= f) s = match p s with
      | .ok a t => f a t
      | .gaveUp t => .gaveUp t
      | .fault fault t => .fault fault t
      | .outOfFuel => .outOfFuel := rfl

theorem pure_apply (a : α) (s : ParserState) : (Pure.pure a : Parser α) s = .ok a s := rfl

/-- Behind an answer the second parser goes on from the state left. -/
theorem bind_of_ok {p : Parser α} {f : α → Parser β} {s t : ParserState} {a : α}
    (h : p s = .ok a t) : (p >>= f) s = f a t := by
  rw [bind_apply, h]

/-- Two parsers answer only if both do, the second from where the first left off. -/
theorem bind_eq_ok {p : Parser α} {f : α → Parser β} {s t : ParserState} {b : β} :
    (p >>= f) s = .ok b t ↔ ∃ a u, p s = .ok a u ∧ f a u = .ok b t := by
  rw [bind_apply]
  cases h : p s with
  | ok a u =>
      constructor
      · intro hf
        exact ⟨a, u, rfl, hf⟩
      · rintro ⟨a', u', he, hf⟩
        simp only [Reply.ok.injEq] at he
        obtain ⟨rfl, rfl⟩ := he
        exact hf
  | _ => simp

theorem pure_eq_ok {a b : α} {s t : ParserState} :
    (Pure.pure a : Parser α) s = .ok b t ↔ a = b ∧ s = t := by
  change Reply.ok a s = .ok b t ↔ _
  simp

/-! ### Reading a token, backwards -/

/-- Looking ahead answers the token ahead and moves nothing. -/
theorem peek_eq_ok {s t : ParserState} {token : Token} :
    peek s = .ok token t ↔ t = s ∧ ∃ rest, s.rest = token :: rest := by
  unfold peek
  cases h : s.rest with
  | nil => simp
  | cons first rest => simp [eq_comm, and_comm]

theorem check_eq_ok {s t : ParserState} {test : TokenKind → Bool} {found : Bool}
    (h : check test s = .ok found t) :
    t = s ∧ ∃ token rest, s.rest = token :: rest ∧ (!token.isEnd && test token.kind) = found := by
  unfold check at h
  cases hr : s.rest with
  | nil => simp [hr] at h
  | cons token rest =>
      simp only [hr, Reply.ok.injEq] at h
      exact ⟨h.2.symm, token, rest, rfl, h.1⟩

/-- A token that was accepted was the one ahead, and passed the test. -/
theorem accept_eq_ok {s t : ParserState} {test : TokenKind → Bool} {found : Option Token}
    (h : accept test s = .ok found t) :
    (found = none ∧ t = s ∧ ∃ token rest, s.rest = token :: rest ∧
        (!token.isEnd && test token.kind) = false) ∨
      ∃ token, found = some token ∧ s.rest = token :: t.rest ∧ token.isEnd = false ∧
        test token.kind = true ∧ t.depth = s.depth ∧ t.errors = s.errors := by
  unfold accept at h
  cases hr : s.rest with
  | nil => simp [hr] at h
  | cons token rest =>
      simp only [hr] at h
      split at h
      · next ht =>
          simp only [Reply.ok.injEq] at h
          obtain ⟨rfl, rfl⟩ := h
          simp only [Bool.and_eq_true, Bool.not_eq_eq_eq_not, Bool.not_true] at ht
          exact .inr ⟨token, rfl, rfl, ht.1, ht.2, rfl, rfl⟩
      · next ht =>
          simp only [Reply.ok.injEq] at h
          exact .inl ⟨h.1.symm, h.2.symm, token, rest, rfl, by simpa using ht⟩

/-- Without an answer nothing was read, and the token ahead is not such. -/
theorem accept_none {s t : ParserState} {test : TokenKind → Bool}
    (h : accept test s = .ok none t) :
    t = s ∧ ∃ token rest, s.rest = token :: rest ∧
      (!token.isEnd && test token.kind) = false := by
  rcases accept_eq_ok h with ⟨-, ht, hr⟩ | ⟨token, hf, -⟩
  · exact ⟨ht, hr⟩
  · simp at hf

theorem accept_some {s t : ParserState} {test : TokenKind → Bool} {token : Token}
    (h : accept test s = .ok (some token) t) :
    s.rest = token :: t.rest ∧ token.isEnd = false ∧ test token.kind = true ∧
      t.depth = s.depth ∧ t.errors = s.errors := by
  rcases accept_eq_ok h with ⟨hf, -⟩ | ⟨token', hf, hr⟩
  · simp at hf
  · obtain rfl : token = token' := by simpa using hf
    exact hr

/-- A token that was expected was the one ahead, and is of the kind. -/
theorem expect_eq_ok {s t : ParserState} {kind : TokenKind} {expectation : Expectation}
    {token : Token} (h : expect kind expectation s = .ok token t) :
    s.rest = token :: t.rest ∧ token.isEnd = false ∧ token.kind = kind ∧ t.depth = s.depth ∧
      t.errors = s.errors := by
  obtain ⟨found, u, hf, hu⟩ := bind_eq_ok.1 h
  cases found with
  | none =>
      obtain ⟨rfl, first, rest, hr, -⟩ := accept_none hf
      simp [giveUp, hr] at hu
  | some first =>
      obtain ⟨rfl, rfl⟩ := pure_eq_ok.1 hu
      obtain ⟨hr, he, hk, hd, herr⟩ := accept_some hf
      exact ⟨hr, he, by simpa using hk, hd, herr⟩

theorem note_eq_ok {s t : ParserState} {token : Token} {cause : SyntaxCause} {a : Unit}
    (h : note token cause s = .ok a t) :
    t = { s with errors := s.errors ++ [⟨token, cause⟩] } := by
  unfold note at h
  simp only [Reply.ok.injEq] at h
  exact h.2.symm

/-- An answer from inside a function body is the answer of the body, and one is taken off its depth. -/
theorem nested_eq_ok {p : Parser α} {s t : ParserState} {a : α} (h : nested p s = .ok a t) :
    ∃ u, p { s with depth := s.depth + 1 } = .ok a u ∧ t = { u with depth := u.depth - 1 } := by
  unfold nested at h
  cases hp : p { s with depth := s.depth + 1 } with
  | ok value u =>
      simp only [hp, Reply.ok.injEq] at h
      obtain ⟨rfl, rfl⟩ := h
      exact ⟨u, rfl, rfl⟩
  | _ => simp [hp] at h

/-! ### Reading a token that is known -/

theorem peek_of_cons {s : ParserState} {token : Token} {rest : List Token}
    (h : s.rest = token :: rest) : peek s = .ok token s := by
  simp [peek, h]

/-- A token that does not end the source text is gone past. -/
theorem advance_of_cons {s : ParserState} {token : Token} {rest : List Token}
    (h : s.rest = token :: rest) (he : token.isEnd = false) :
    advance s = .ok () { s with rest } := by
  simp [advance, h, he]

theorem check_of_cons {s : ParserState} {token : Token} {rest : List Token}
    {test : TokenKind → Bool} (h : s.rest = token :: rest) :
    check test s = .ok (!token.isEnd && test token.kind) s := by
  simp [check, h]

/-- A token that passes the test is accepted, unless it ends the source text. -/
theorem accept_of_test {s : ParserState} {token : Token} {rest : List Token}
    {test : TokenKind → Bool} (h : s.rest = token :: rest) (he : token.isEnd = false)
    (ht : test token.kind = true) : accept test s = .ok (some token) { s with rest } := by
  simp [accept, h, he, ht]

theorem accept_of_not_test {s : ParserState} {token : Token} {rest : List Token}
    {test : TokenKind → Bool} (h : s.rest = token :: rest) (ht : test token.kind = false) :
    accept test s = .ok none s := by
  simp [accept, h, ht]

/-- A token of the kind that is expected is read. -/
theorem expect_of_kind {s : ParserState} {token : Token} {rest : List Token} {kind : TokenKind}
    {expectation : Expectation} (h : s.rest = token :: rest) (hk : token.kind = kind)
    (he : kind ≠ .endOfSource) : expect kind expectation s = .ok token { s with rest } := by
  have hend : token.isEnd = false := Token.isEnd_eq_false (by rw [hk]; exact he)
  exact bind_of_ok (accept_of_test h hend (by simp [hk]))

end Parser

end LoxLang
