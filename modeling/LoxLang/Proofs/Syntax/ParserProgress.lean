/-
**The parser goes forward, stays in front of the end, and comes back out of function bodies.**

If some token ends the source text and no numeral or string lacks its value, then from every place
up to the first end each rule comes to an answer, or gives up, at a place that is not behind the
first end and at the depth that it started at.  A declaration in front of anything but the end
always answers, and goes past at least one token, also if an error is taken over in it.  So the
parser reaches the first end, and never looks for a token where the list has none.

Places are counted from the front of the list.  The fuel is no part of these statements: a rule
*concludes* with a reply if it answers it with enough fuel, and with less answers it or runs out.

* `LoxLang.Legible`, `LoxLang.endPlace` — tokens that can be parsed, and the place of the first end;
* `LoxLang.Parser.Concludes`, `LoxLang.Parser.Rule.exists_concludes` — what a rule answers, apart
  from fuel;
* `LoxLang.Parser.Rule.concludes_inside` — every rule stays in front of the end, at its depth;
* `LoxLang.Parser.concludes_declaration` — a declaration goes forward;
* `LoxLang.parse_progress` — all of it, and the parser at the end.
-/

import LoxLang.Proofs.Syntax.ParserFuel
import LoxLang.Proofs.Syntax.ParserRules
import LoxLang.Proofs.Syntax.WellFormed

set_option relaxedAutoImplicit false
set_option autoImplicit false

namespace LoxLang

/-! ### Places -/

/-- Some token ends the source text, and no numeral or string lacks its value. -/
structure Legible (tokens : List Token) : Prop where
  ends : ∃ token ∈ tokens, token.isEnd = true
  valued : ∀ token ∈ tokens, ¬ token.LacksValue

/-- The place of the first token that ends the source text. -/
def endPlace (tokens : List Token) : Nat := tokens.findIdx Token.isEnd

theorem Legible.endPlace_lt {tokens : List Token} (h : Legible tokens) :
    endPlace tokens < tokens.length :=
  List.findIdx_lt_length_of_exists h.ends

theorem Legible.exists_end {tokens : List Token} (h : Legible tokens) :
    ∃ ending, tokens[endPlace tokens]? = some ending ∧ ending.isEnd = true := by
  have hlt := h.endPlace_lt
  exact ⟨tokens[endPlace tokens], List.getElem?_eq_getElem hlt, List.findIdx_getElem⟩

/-- Up to the first end the end is still ahead. -/
theorem getElem?_drop_endPlace {tokens : List Token} {ending : Token} {place : Nat}
    (hget : tokens[endPlace tokens]? = some ending) (hle : place ≤ endPlace tokens) :
    (tokens.drop place)[endPlace tokens - place]? = some ending := by
  rw [List.getElem?_drop, Nat.add_sub_cancel' hle, hget]

/-- What was read between two states lies between two places. -/
theorem ParserState.Reaches.place {tokens : List Token} (h : Legible tokens) {s t : ParserState}
    {place : Nat} (hs : s.rest = tokens.drop place) (hle : place ≤ endPlace tokens)
    (hr : s.Reaches t) :
    ∃ place', t.rest = tokens.drop place' ∧ place ≤ place' ∧ place' ≤ endPlace tokens := by
  obtain ⟨ts, hts, hend⟩ := hr.read
  rw [hs] at hts
  refine ⟨place + ts.length, ?_, Nat.le_add_right _ _, ?_⟩
  · rw [← List.drop_drop, hts, List.drop_left]
  · -- Otherwise the first end would have been read.
    refine Nat.le_of_not_lt fun hlt => ?_
    have hlen : endPlace tokens - place < ts.length := by omega
    obtain ⟨ending, hget, hending⟩ := h.exists_end
    have hahead := getElem?_drop_endPlace hget hle
    rw [hts, List.getElem?_append_left hlen] at hahead
    have hnone := hend ending (List.mem_of_getElem? hahead)
    rw [hending] at hnone
    cases hnone

namespace Parser

variable {α : Type}

/-! ### What a rule answers, apart from fuel -/

/-- From the state the rule answers this with enough fuel, and with less it answers this or runs
out. -/
structure Concludes (p : Nat → Parser α) (s : ParserState) (r : Reply α) : Prop where
  answered : r ≠ .outOfFuel
  enough : ∃ least, ∀ fuel, least ≤ fuel → p fuel s = r
  only : ∀ fuel, p fuel s = .outOfFuel ∨ p fuel s = r

/-- How much fuel is enough for a rule and the given number of tokens ahead. -/
theorem Rule.exists_lasts {p : Nat → Parser α} (hp : Rule p) (n : Nat) :
    ∃ least, ∀ fuel, least ≤ fuel → (p fuel).Lasts n := by
  cases hp with
  | expression => exact ⟨_, fun _ => lasts_expression⟩
  | operand levels => exact ⟨_, fun _ => lasts_operand⟩
  | operations level tighter left => exact ⟨_, fun _ => lasts_operations⟩
  | unary => exact ⟨_, fun _ => lasts_unary⟩
  | calls callee => exact ⟨_, fun _ => lasts_calls⟩
  | argumentList => exact ⟨_, fun _ => lasts_argumentList⟩
  | arguments before => exact ⟨_, fun _ => lasts_arguments⟩
  | primary => exact ⟨_, fun _ => lasts_primary⟩
  | parameters before => exact ⟨_, fun _ => lasts_parameters⟩
  | parameterList => exact ⟨_, fun _ => lasts_parameterList⟩
  | optionalExpression stop => exact ⟨_, fun _ => lasts_optionalExpression⟩
  | initializer => exact ⟨_, fun _ => lasts_initializer⟩
  | variableDeclaration => exact ⟨_, fun _ => lasts_variableDeclaration⟩
  | expressionStatement => exact ⟨_, fun _ => lasts_expressionStatement⟩
  | printStatement => exact ⟨_, fun _ => lasts_printStatement⟩
  | returnStatement keyword => exact ⟨_, fun _ => lasts_returnStatement⟩
  | declaration => exact ⟨_, fun _ => lasts_declaration⟩
  | bareDeclaration => exact ⟨_, fun _ => lasts_bareDeclaration⟩
  | function => exact ⟨_, fun _ => lasts_function⟩
  | statement => exact ⟨_, fun _ => lasts_statement⟩
  | forStatement => exact ⟨_, fun _ => lasts_forStatement⟩
  | forInitializer => exact ⟨_, fun _ => lasts_forInitializer⟩
  | ifStatement => exact ⟨_, fun _ => lasts_ifStatement⟩
  | whileStatement => exact ⟨_, fun _ => lasts_whileStatement⟩
  | block => exact ⟨_, fun _ => lasts_block⟩
  | blockItems => exact ⟨_, fun _ => lasts_blockItems⟩
  | program => exact ⟨_, fun _ => lasts_program⟩

/-- **Every rule comes to an answer**, from every state. -/
theorem Rule.exists_concludes {p : Nat → Parser α} (hp : Rule p) (s : ParserState) :
    ∃ r, Concludes p s r := by
  obtain ⟨least, hl⟩ := hp.exists_lasts s.rest.length
  have hlasts : ∀ fuel, least ≤ fuel → p fuel s ≠ .outOfFuel := fun fuel h =>
    hl fuel h s (Nat.le_refl _)
  have hleast := hlasts least (Nat.le_refl _)
  refine ⟨p least s, hleast, ⟨least, fun fuel h => hp.eq_of_ne_outOfFuel hleast (hlasts fuel h)⟩,
    fun fuel => ?_⟩
  by_cases hout : p fuel s = .outOfFuel
  · exact .inl hout
  · exact .inr (hp.eq_of_ne_outOfFuel hleast hout)

/-- What a rule concludes with is what it answers with some fuel. -/
theorem Concludes.exists_fuel {p : Nat → Parser α} {s : ParserState} {r : Reply α}
    (h : Concludes p s r) : ∃ fuel, p fuel s = r := by
  obtain ⟨least, hl⟩ := h.enough
  exact ⟨least, hl least (Nat.le_refl _)⟩

theorem Rule.concludes_of_eq {p : Nat → Parser α} (hp : Rule p) {s : ParserState} {r : Reply α}
    (fuel : Nat) (h : p fuel s = r) (hr : r ≠ .outOfFuel) : Concludes p s r := by
  obtain ⟨found, hf⟩ := hp.exists_concludes s
  rcases hf.only fuel with hout | heq
  · rw [h] at hout
    exact absurd hout hr
  · rwa [← h, heq]

/-! ### Rules stay in front of the end -/

/-- Every rule only moves forward. -/
theorem Rule.proceeds {p : Nat → Parser α} (hp : Rule p) (fuel : Nat) : (p fuel).Proceeds := by
  cases hp with
  | expression => exact proceeds_expression fuel
  | operand levels => exact proceeds_operand fuel levels
  | operations level tighter left => exact proceeds_operations fuel level tighter left
  | unary => exact proceeds_unary fuel
  | calls callee => exact proceeds_calls fuel callee
  | argumentList => exact proceeds_argumentList fuel
  | arguments before => exact proceeds_arguments fuel before
  | primary => exact proceeds_primary fuel
  | parameters before => exact proceeds_parameters fuel before
  | parameterList => exact proceeds_parameterList fuel
  | optionalExpression stop => exact proceeds_optionalExpression fuel stop
  | initializer => exact proceeds_initializer fuel
  | variableDeclaration => exact proceeds_variableDeclaration fuel
  | expressionStatement => exact proceeds_expressionStatement fuel
  | printStatement => exact proceeds_printStatement fuel
  | returnStatement keyword => exact proceeds_returnStatement fuel keyword
  | declaration => exact proceeds_declaration fuel
  | bareDeclaration => exact proceeds_bareDeclaration fuel
  | function => exact proceeds_function fuel
  | statement => exact proceeds_statement fuel
  | forStatement => exact proceeds_forStatement fuel
  | forInitializer => exact proceeds_forInitializer fuel
  | ifStatement => exact proceeds_ifStatement fuel
  | whileStatement => exact proceeds_whileStatement fuel
  | block => exact proceeds_block fuel
  | blockItems => exact proceeds_blockItems fuel
  | program => exact proceeds_program fuel

/-- A parser that only moves forward meets no fault on legible tokens: it answers or gives up, in
front of the first end and at its depth, or it runs out of fuel. -/
theorem Proceeds.inside {tokens : List Token} (h : Legible tokens) {p : Parser α} (hp : p.Proceeds)
    {place depth : Nat} {errors : List SyntaxError} (hle : place ≤ endPlace tokens)
    (hout : p ⟨tokens.drop place, depth, errors⟩ ≠ .outOfFuel) :
    ∃ place' errors', place ≤ place' ∧ place' ≤ endPlace tokens ∧
      ((∃ a, p ⟨tokens.drop place, depth, errors⟩ = .ok a ⟨tokens.drop place', depth, errors'⟩) ∨
        p ⟨tokens.drop place, depth, errors⟩ = .gaveUp ⟨tokens.drop place', depth, errors'⟩) := by
  have hfrom := hp ⟨tokens.drop place, depth, errors⟩
  cases hr : p ⟨tokens.drop place, depth, errors⟩ with
  | outOfFuel => exact absurd hr hout
  | ok a t =>
      rw [hr] at hfrom
      obtain ⟨place', hrest, hfirst, hlast⟩ := ParserState.Reaches.place h rfl hle hfrom
      obtain ⟨rest, depth', errors'⟩ := t
      obtain rfl : depth' = depth := hfrom.depth
      obtain rfl : rest = tokens.drop place' := hrest
      exact ⟨place', errors', hfirst, hlast, .inl ⟨a, rfl⟩⟩
  | gaveUp t =>
      rw [hr] at hfrom
      have hreach : ParserState.Reaches _ t := hfrom.reaches
      obtain ⟨place', hrest, hfirst, hlast⟩ := ParserState.Reaches.place h rfl hle hreach
      obtain ⟨rest, depth', errors'⟩ := t
      obtain rfl : depth' = depth := hreach.depth
      obtain rfl : rest = tokens.drop place' := hrest
      exact ⟨place', errors', hfirst, hlast, .inr rfl⟩
  | fault fault t =>
      rw [hr] at hfrom
      cases fault with
      | offEnd =>
          -- The token that ends the text is ahead still, so the tokens were not run off.
          obtain ⟨ending, hget, hending⟩ := h.exists_end
          have hnone := hfrom ending (List.mem_of_getElem? (getElem?_drop_endPlace hget hle))
          rw [hending] at hnone
          cases hnone
      | missingLiteral =>
          -- Nor is there a numeral or a string without its value.
          obtain ⟨token, hmem, hlacks⟩ := hfrom
          exact absurd hlacks (h.valued token (List.mem_of_mem_drop hmem))

/-- **Every rule stays in front of the end, at its depth**, whether it answers or gives up. -/
theorem Rule.concludes_inside {tokens : List Token} (h : Legible tokens) {p : Nat → Parser α}
    (hp : Rule p) {place : Nat} (hle : place ≤ endPlace tokens) (depth : Nat)
    (errors : List SyntaxError) :
    ∃ place' errors', place ≤ place' ∧ place' ≤ endPlace tokens ∧
      ((∃ a, Concludes p ⟨tokens.drop place, depth, errors⟩
          (.ok a ⟨tokens.drop place', depth, errors'⟩)) ∨
        Concludes p ⟨tokens.drop place, depth, errors⟩
          (.gaveUp ⟨tokens.drop place', depth, errors'⟩)) := by
  obtain ⟨r, hr⟩ := hp.exists_concludes ⟨tokens.drop place, depth, errors⟩
  obtain ⟨fuel, hf⟩ := hr.exists_fuel
  obtain ⟨place', errors', hfirst, hlast, hreply⟩ :=
    (hp.proceeds fuel).inside h hle (hf ▸ hr.answered)
  refine ⟨place', errors', hfirst, hlast, ?_⟩
  rw [hf] at hreply
  rcases hreply with ⟨a, rfl⟩ | rfl
  · exact .inl ⟨a, hr⟩
  · exact .inr hr

/-- **A declaration in front of anything but the end answers and goes forward**, also if an error is
taken over in it. -/
theorem concludes_declaration {tokens : List Token} (h : Legible tokens) {place : Nat}
    (hlt : place < endPlace tokens) (depth : Nat) (errors : List SyntaxError) :
    ∃ found place' errors', place < place' ∧ place' ≤ endPlace tokens ∧
      Concludes declaration ⟨tokens.drop place, depth, errors⟩
        (.ok found ⟨tokens.drop place', depth, errors'⟩) := by
  have hplace : place < tokens.length := Nat.lt_trans hlt h.endPlace_lt
  obtain ⟨place', errors', -, hlast, ⟨found, hs⟩ | hs⟩ :=
    Rule.declaration.concludes_inside h (Nat.le_of_lt hlt) depth errors
  · obtain ⟨fuel, hf⟩ := hs.exists_fuel
    have hcons : tokens.drop place = tokens[place] :: tokens.drop (place + 1) :=
      List.drop_eq_getElem_cons hplace
    have hend : tokens[place].isEnd = false := by
      simpa using List.not_of_lt_findIdx hlt
    have hless : (tokens.drop place').length < (tokens.drop place).length :=
      declaration_length_lt hcons hend hf
    rw [List.length_drop, List.length_drop] at hless
    exact ⟨found, place', errors', by omega, hlast, hs⟩
  · obtain ⟨fuel, hf⟩ := hs.exists_fuel
    exact absurd hf (persists_declaration fuel _ _)

/-- The declarations of a program are read up to an end. -/
theorem isEnd_of_program {fuel : Nat} {s t : ParserState} {ss : List Stmt}
    (h : program fuel s = .ok ss t) :
    ∃ token rest, t.rest = token :: rest ∧ token.isEnd = true := by
  induction fuel generalizing s ss with
  | zero => cases h
  | succ fuel ih =>
      rw [program] at h
      obtain ⟨token, u, hu, h₁⟩ := bind_eq_ok.1 h
      obtain ⟨rfl, rest, hr⟩ := peek_eq_ok.1 hu
      split at h₁
      · next hend =>
          obtain ⟨-, rfl⟩ := pure_eq_ok.1 h₁
          exact ⟨token, rest, hr, hend⟩
      · obtain ⟨first, v, -, h₂⟩ := bind_eq_ok.1 h₁
        obtain ⟨others, w, hw, h₃⟩ := bind_eq_ok.1 h₂
        obtain ⟨-, rfl⟩ := pure_eq_ok.1 h₃
        exact ih hw

end Parser

/-! ### The parser -/

/-- The parser comes to the first end, outside function bodies. -/
theorem parse_eq_ok_endPlace {tokens : List Token} (h : Legible tokens) :
    ∃ ss errors, parse tokens = .ok ss ⟨tokens.drop (endPlace tokens), 0, errors⟩ := by
  have hout : Parser.program (parserFuel tokens) ⟨tokens.drop 0, 0, []⟩ ≠ .outOfFuel := by
    rw [List.drop_zero]
    exact parse_ne_outOfFuel tokens
  obtain ⟨place, errors, -, hlast, ⟨ss, hp⟩ | hp⟩ :=
    (Parser.proceeds_program _).inside h (Nat.zero_le _) hout
  · obtain ⟨token, rest, hr, hend⟩ := Parser.isEnd_of_program hp
    have hplace : place = endPlace tokens := by
      refine Nat.le_antisymm hlast (Nat.le_of_not_lt fun hlt => ?_)
      have hlength : place < tokens.length := Nat.lt_trans hlt h.endPlace_lt
      have hcons : tokens.drop place = tokens[place] :: tokens.drop (place + 1) :=
        List.drop_eq_getElem_cons hlength
      rw [hcons] at hr
      have hnone : token.isEnd = false := by
        rw [← (List.cons.inj hr).1]
        simpa using List.not_of_lt_findIdx hlt
      rw [hend] at hnone
      cases hnone
    subst hplace
    rw [List.drop_zero] at hp
    exact ⟨ss, errors, hp⟩
  · exact absurd hp (Parser.persists_program _ _ _)

/-- **The parser goes forward, stays in front of the end, and comes back to its depth.**  A
declaration in front of anything but the end answers behind at least one token, up to the first end
and at its depth, whether it is read or given up; every rule, also one that gives up, ends at its
depth up to the first end; and the parser ends in front of the first end, outside function bodies.
None of them looks for a token behind the last. -/
theorem parse_progress {tokens : List Token} (h : Legible tokens) :
    (∀ place depth errors, place < endPlace tokens →
      ∃ found place' errors', place < place' ∧ place' ≤ endPlace tokens ∧
        Parser.Concludes Parser.declaration ⟨tokens.drop place, depth, errors⟩
          (.ok found ⟨tokens.drop place', depth, errors'⟩)) ∧
      (∀ (α : Type) (p : Nat → Parser α), Parser.Rule p →
        ∀ place depth errors, place ≤ endPlace tokens →
          ∃ place' errors', place ≤ place' ∧ place' ≤ endPlace tokens ∧
            ((∃ a, Parser.Concludes p ⟨tokens.drop place, depth, errors⟩
                (.ok a ⟨tokens.drop place', depth, errors'⟩)) ∨
              Parser.Concludes p ⟨tokens.drop place, depth, errors⟩
                (.gaveUp ⟨tokens.drop place', depth, errors'⟩))) ∧
      ∃ ss errors, parse tokens = .ok ss ⟨tokens.drop (endPlace tokens), 0, errors⟩ :=
  ⟨fun _ depth errors hlt => Parser.concludes_declaration h hlt depth errors,
    fun _ _ hp _ depth errors hle => hp.concludes_inside h hle depth errors, parse_eq_ok_endPlace h⟩

/-- The tokens of a function whose body is not closed, with another text behind the end. -/
def openBody : List Token :=
  [⟨.funWord, "fun", none, 1⟩, ⟨.identifier, "f", none, 1⟩, ⟨.leftParen, "(", none, 1⟩,
    ⟨.rightParen, ")", none, 1⟩, ⟨.leftBrace, "\x7b", none, 1⟩, ⟨.minus, "-", none, 2⟩,
    ⟨.semicolon, ";", none, 2⟩, Token.endOfSource 2, ⟨.elseWord, "else", none, 3⟩,
    Token.endOfSource 3]

/-- The declaration in the body fails and stays at its depth, and so does the one around it. -/
theorem parse_progress_openBody :
    Legible openBody ∧ endPlace openBody = 7 ∧
      (∃ found place' errors', 5 < place' ∧ place' ≤ 7 ∧
        Parser.Concludes Parser.declaration ⟨openBody.drop 5, 1, []⟩
          (.ok found ⟨openBody.drop place', 1, errors'⟩)) ∧
      ∃ ss errors, parse openBody = .ok ss ⟨openBody.drop 7, 0, errors⟩ := by
  have hlegible : Legible openBody :=
    ⟨⟨Token.endOfSource 2, by decide, rfl⟩, by simp [openBody, Token.LacksValue, Token.endOfSource]⟩
  have hend : endPlace openBody = 7 := by decide
  obtain ⟨hdeclaration, -, hparse⟩ := parse_progress hlegible
  rw [hend] at hdeclaration hparse
  exact ⟨hlegible, hend, hdeclaration 5 1 [] (by decide), hparse⟩

end LoxLang
