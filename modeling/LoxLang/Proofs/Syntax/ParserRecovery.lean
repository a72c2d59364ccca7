/-
**Where the parser goes on after an error.**

A declaration that fails has recorded one error more than it could repair: the last one, at the
token in front of which it gave up.  Nothing moves between the giving up and the taking over, and
taking over records nothing.  At the end the parser stays where it is; elsewhere it goes on at the
first *boundary* behind the token: at an end, at a word that begins a statement, or behind a
semicolon.

A block and a program are read by the same loop, with different tokens in front of which it stops.
What the loop has collected when a declaration fails is kept, and the failed one adds nothing.

* `LoxLang.Boundary`, `LoxLang.Resumes` — boundaries, and the place to go on at;
* `LoxLang.Parser.resumes_of_synchronized?` — recovery finds the first boundary;
* `LoxLang.Parser.Loop`, `LoxLang.Parser.Collects` — the loops of declarations, and what they
  collect;
* `LoxLang.Parser.filterMap_outlineFrom` — the statements of a program, declaration by declaration;
* `LoxLang.Parser.declaration_recovers` — **a failed declaration, and the loop around it**.
-/

import LoxLang.Proofs.Syntax.ParserProgress

set_option relaxedAutoImplicit false
set_option autoImplicit false

namespace LoxLang

/-! ### Boundaries -/

/-- The words that begin a statement. -/
def statementWords : List TokenKind :=
  [.classWord, .funWord, .varWord, .forWord, .ifWord, .whileWord, .printWord, .returnWord]

theorem startsStatement_iff {kind : TokenKind} :
    kind.startsStatement = true ↔ kind ∈ statementWords := by
  cases kind <;> decide

/-- The parser may go on at the place: an end is there, or a word that begins a statement, or a
semicolon in front of it. -/
def Boundary (tokens : List Token) (place : Nat) : Prop :=
  (∃ token, tokens[place]? = some token ∧ token.isEnd = true) ∨
    (∃ before, tokens[place - 1]? = some before ∧ before.kind = .semicolon) ∨
    ∃ token, tokens[place]? = some token ∧ token.kind ∈ statementWords

/-- After an error at the first place the parser goes on at the second: the same at an end, and
otherwise the first boundary behind it. -/
structure Resumes (tokens : List Token) (place resumed : Nat) : Prop where
  atEnd : ∀ token, tokens[place]? = some token → token.isEnd = true → resumed = place
  later : ∀ token, tokens[place]? = some token → token.isEnd = false →
    place + 1 ≤ resumed ∧ Boundary tokens resumed ∧
      ∀ skipped, place + 1 ≤ skipped → skipped < resumed → ¬ Boundary tokens skipped

namespace Parser

variable {tokens : List Token}

/-- The token ahead decides together with the one before it whether the place is a boundary. -/
theorem boundary_iff {place : Nat} {before token : Token} (hb : tokens[place]? = some before)
    (ht : tokens[place + 1]? = some token) :
    Boundary tokens (place + 1) ↔
      (token.isEnd || before.kind == .semicolon || token.kind.startsStatement) = true := by
  unfold Boundary
  rw [ht, Nat.add_sub_cancel, hb]
  simp only [Option.some.injEq, Bool.or_eq_true, beq_iff_eq, startsStatement_iff]
  constructor
  · rintro (⟨_, rfl, h⟩ | ⟨_, rfl, h⟩ | ⟨_, rfl, h⟩)
    · exact .inl (.inl h)
    · exact .inl (.inr h)
    · exact .inr h
  · rintro ((h | h) | h)
    · exact .inl ⟨_, rfl, h⟩
    · exact .inr (.inl ⟨_, rfl, h⟩)
    · exact .inr (.inr ⟨_, rfl, h⟩)

/-- Looking for a boundary finds the first one, from the place behind the given token on. -/
theorem first_of_boundary? {ts us : List Token} : ∀ {place : Nat} {before : Token},
    tokens[place]? = some before → tokens.drop (place + 1) = ts →
      boundary? before.kind ts = some us →
        ∃ resumed, us = tokens.drop resumed ∧ place + 1 ≤ resumed ∧ Boundary tokens resumed ∧
          ∀ skipped, place + 1 ≤ skipped → skipped < resumed → ¬ Boundary tokens skipped := by
  induction ts with
  | nil =>
      intro place before _ _ h
      cases h
  | cons token rest ih =>
      intro place before hb hts h
      have ht : tokens[place + 1]? = some token := by
        rw [← List.head?_drop, hts]
        rfl
      rw [boundary?] at h
      split at h
      · next hstop =>
          obtain rfl := Option.some.inj h
          exact ⟨place + 1, hts.symm, Nat.le_refl _, (boundary_iff hb ht).2 hstop,
            fun skipped hge hlt => absurd hge (Nat.not_le_of_lt hlt)⟩
      · next hgo =>
          have hrest : tokens.drop (place + 1 + 1) = rest := by
            rw [← List.tail_drop, hts]
            rfl
          obtain ⟨resumed, hus, hge, hboundary, hleast⟩ := ih ht hrest h
          refine ⟨resumed, hus, Nat.le_of_succ_le hge, hboundary, fun skipped hfirst hlt => ?_⟩
          rcases Nat.eq_or_lt_of_le hfirst with rfl | hlater
          · exact fun hskipped => hgo ((boundary_iff hb ht).1 hskipped)
          · exact hleast skipped hlater hlt

/-- **Recovery goes on at the first boundary behind the token**, and at the end stays there. -/
theorem resumes_of_synchronized? {place : Nat} {us : List Token}
    (h : synchronized? (tokens.drop place) = some us) :
    ∃ resumed, us = tokens.drop resumed ∧ Resumes tokens place resumed := by
  cases hts : tokens.drop place with
  | nil =>
      rw [hts] at h
      cases h
  | cons token rest =>
      have ht : tokens[place]? = some token := by
        rw [← List.head?_drop, hts]
        rfl
      have hrest : tokens.drop (place + 1) = rest := by
        rw [← List.tail_drop, hts]
        rfl
      rw [hts, synchronized?] at h
      split at h
      · next hend =>
          obtain rfl := Option.some.inj h
          refine ⟨place, hts.symm, fun _ _ _ => rfl, fun other ho hnone => ?_⟩
          rw [ht] at ho
          rw [← Option.some.inj ho, hend] at hnone
          cases hnone
      · next hgo =>
          obtain ⟨resumed, hus, hge, hboundary, hleast⟩ := first_of_boundary? ht hrest h
          refine ⟨resumed, hus, fun other ho hend => ?_, fun _ _ _ => ⟨hge, hboundary, hleast⟩⟩
          rw [ht] at ho
          rw [← Option.some.inj ho] at hend
          exact absurd hend hgo

/-! ### The loops of declarations -/

/-- The loops that read declarations one by one, with the tokens in front of which they stop. -/
inductive Loop : (Token → Bool) → (Nat → Parser (List Stmt)) → Prop
  | block : Loop (fun token => token.kind == .rightBrace || token.isEnd) blockItems
  | program : Loop Token.isEnd program

variable {stops : Token → Bool} {p : Nat → Parser (List Stmt)}

theorem Loop.rule (hl : Loop stops p) : Rule p := by
  cases hl with
  | block => exact .blockItems
  | program => exact .program

/-- In front of a token that it stops at a loop answers nothing. -/
theorem Loop.stopped (hl : Loop stops p) {s : ParserState} {token : Token} {rest : List Token}
    (hr : s.rest = token :: rest) (hs : stops token = true) (fuel : Nat) :
    p (fuel + 1) s = .ok [] s := by
  cases hl with
  | block =>
      rw [blockItems, bind_of_ok (peek_of_cons hr), if_pos hs]
      rfl
  | program =>
      rw [Parser.program, bind_of_ok (peek_of_cons hr), if_pos hs]
      rfl

/-- In front of any other token it reads a declaration, and puts it in front of the others if there
is one. -/
theorem Loop.more (hl : Loop stops p) {s : ParserState} {token : Token} {rest : List Token}
    (hr : s.rest = token :: rest) (hs : stops token = false) (fuel : Nat) :
    p (fuel + 1) s = (declaration fuel >>= fun first => p fuel >>= fun others =>
      Pure.pure (first.toList ++ others)) s := by
  have hs : ¬ stops token = true := by simp [hs]
  cases hl with
  | block => rw [blockItems, bind_of_ok (peek_of_cons hr), if_neg hs]
  | program => rw [Parser.program, bind_of_ok (peek_of_cons hr), if_neg hs]

theorem outlineFrom_of_isEnd {fuel : Nat} {s : ParserState} {token : Token} {rest : List Token}
    (hr : s.rest = token :: rest) (he : token.isEnd = true) : outlineFrom (fuel + 1) s = [] := by
  rw [outlineFrom, hr]
  simp [he]

theorem outlineFrom_cons {fuel : Nat} {s t : ParserState} {token : Token} {rest : List Token}
    {found : Option Stmt} (hr : s.rest = token :: rest) (he : token.isEnd = false)
    (h : declaration fuel s = .ok found t) :
    outlineFrom (fuel + 1) s = ⟨found, t⟩ :: outlineFrom fuel t := by
  rw [outlineFrom, hr]
  simp [he, h]

/-- A declaration at the top is the next one or a later one. -/
theorem mem_outlineFrom {fuel : Nat} {s : ParserState} {token : Token} {rest : List Token}
    {step : OutlineStep} (hr : s.rest = token :: rest) (he : token.isEnd = false)
    (h : step ∈ outlineFrom (fuel + 1) s) :
    ∃ found t, declaration fuel s = .ok found t ∧
      (step = ⟨found, t⟩ ∨ step ∈ outlineFrom fuel t) := by
  cases hd : declaration fuel s with
  | ok found t =>
      rw [outlineFrom_cons hr he hd] at h
      exact ⟨found, t, rfl, List.mem_cons.1 h⟩
  | _ =>
      rw [outlineFrom, hr] at h
      simp [he, hd] at h

/-- The statements of a program are the declarations at the top that are read. -/
theorem filterMap_outlineFrom {fuel : Nat} {s t : ParserState} {ss : List Stmt}
    (h : program fuel s = .ok ss t) :
    (outlineFrom fuel s).filterMap OutlineStep.declaration = ss := by
  induction fuel generalizing s ss with
  | zero => cases h
  | succ fuel ih =>
      cases hr : s.rest with
      | nil =>
          rw [Parser.program, bind_apply] at h
          simp [peek, hr] at h
      | cons token rest =>
          cases he : token.isEnd with
          | true =>
              rw [Loop.program.stopped hr he] at h
              rw [outlineFrom_of_isEnd hr he]
              exact (Reply.ok.inj h).1
          | false =>
              rw [Loop.program.more hr he] at h
              obtain ⟨found, u, hdeclaration, h⟩ := bind_eq_ok.1 h
              obtain ⟨others, v, hothers, h⟩ := bind_eq_ok.1 h
              obtain ⟨rfl, rfl⟩ := pure_eq_ok.1 h
              rw [outlineFrom_cons hr he hdeclaration, List.filterMap_cons, ih hothers]
              cases found <;> rfl

/-- What a loop has collected when it has come from the first state to the second. -/
inductive Collects (stops : Token → Bool) (s : ParserState) : List Stmt → ParserState → Prop
  | nothing : Collects stops s [] s
  | next {ss : List Stmt} {t u : ParserState} {token : Token} {rest : List Token}
      {found : Option Stmt} (h : Collects stops s ss t) (hr : t.rest = token :: rest)
      (hs : stops token = false) (hd : Concludes declaration t (.ok found u)) :
      Collects stops s (ss ++ found.toList) u

/-- One round of a loop. -/
theorem Loop.concludes_next (hl : Loop stops p) {s t u : ParserState} {token : Token}
    {rest : List Token} {found : Option Stmt} {others : List Stmt} (hr : s.rest = token :: rest)
    (hs : stops token = false) (hd : Concludes declaration s (.ok found t))
    (h : Concludes p t (.ok others u)) : Concludes p s (.ok (found.toList ++ others) u) := by
  obtain ⟨least, hleast⟩ := hd.enough
  obtain ⟨least', hleast'⟩ := h.enough
  refine hl.rule.concludes_of_eq (least + least' + 1) ?_ nofun
  rw [hl.more hr hs, bind_of_ok (hleast _ (Nat.le_add_right _ _)),
    bind_of_ok (hleast' _ (Nat.le_add_left _ _))]
  rfl

/-- **What a loop has collected stays collected**, in front of what it collects from there on. -/
theorem Collects.concludes (hl : Loop stops p) {s t u : ParserState} {ss others : List Stmt}
    (hc : Collects stops s ss t) (h : Concludes p t (.ok others u)) :
    Concludes p s (.ok (ss ++ others) u) := by
  induction hc generalizing others with
  | nothing => exact h
  | next _ hr hs hd ih =>
      rw [List.append_assoc]
      exact ih (hl.concludes_next hr hs hd h)

/-! ### Failed declarations -/

/-- A declaration without an answer is one that gave up and was taken over. -/
theorem gaveUp_of_declaration_none {fuel : Nat} {s t : ParserState}
    (h : declaration (fuel + 1) s = .ok none t) :
    ∃ u us, bareDeclaration fuel s = .gaveUp u ∧ synchronized? u.rest = some us ∧
      t = { u with rest := us } := by
  rw [declaration] at h
  unfold recovering at h
  -- Only a declaration that was given up has no tree.
  cases hb : bareDeclaration fuel s with
  | ok value u =>
      rw [hb] at h
      cases h
  | gaveUp u =>
      rw [hb] at h
      obtain ⟨_, v, hv, h₁⟩ := bind_eq_ok.1 h
      obtain ⟨-, rfl⟩ := pure_eq_ok.1 h₁
      unfold synchronize at hv
      cases hsync : synchronized? u.rest with
      | none =>
          rw [hsync] at hv
          cases hv
      | some us =>
          rw [hsync] at hv
          cases hv
          exact ⟨u, us, rfl, hsync, rfl⟩
  | fault fault u =>
      rw [hb] at h
      cases h
  | outOfFuel =>
      rw [hb] at h
      cases h

/-- **A failed declaration.**  It gave up in front of a token at or behind the place where it
started, and the error at this token is the last that it has recorded; taking over recorded no
other.  It goes on where recovery from this token resumes.  A loop around it keeps what it had
collected, adds nothing, and collects on from there. -/
theorem declaration_recovers {place depth : Nat} {errors : List SyntaxError} {t : ParserState}
    (h : Concludes declaration ⟨tokens.drop place, depth, errors⟩ (.ok none t)) :
    (∃ noted token expectation failed resumed, place ≤ failed ∧ tokens[failed]? = some token ∧
      Concludes bareDeclaration ⟨tokens.drop place, depth, errors⟩
        (.gaveUp ⟨tokens.drop failed, depth,
          errors ++ noted ++ [⟨token, .expected expectation⟩]⟩) ∧
      Resumes tokens failed resumed ∧
      t = ⟨tokens.drop resumed, depth, errors ++ noted ++ [⟨token, .expected expectation⟩]⟩) ∧
      ∀ stops p, Loop stops p → ∀ s ss token rest, tokens.drop place = token :: rest →
        stops token = false → Collects stops s ss ⟨tokens.drop place, depth, errors⟩ →
          ∀ others u, Concludes p t (.ok others u) → Concludes p s (.ok (ss ++ others) u) := by
  refine ⟨?_, fun stops p hl s ss token rest hr hs hc others u hothers => ?_⟩
  · obtain ⟨least, hleast⟩ := h.enough
    obtain ⟨u, us, hb, hsync, rfl⟩ :=
      gaveUp_of_declaration_none (hleast (least + 1) (Nat.le_succ _))
    -- Where it gave up, and what it had recorded on the way, is known of every parser.
    have hgives := proceeds_bareDeclaration least ⟨tokens.drop place, depth, errors⟩
    rw [hb] at hgives
    obtain ⟨v, token, rest, expectation, hv, hr, rfl⟩ := hgives
    obtain ⟨ts, hts, -⟩ := hv.read
    obtain ⟨noted, hnoted⟩ := hv.errors
    have hplace : v.rest = tokens.drop (place + ts.length) := by
      rw [← List.drop_drop, show tokens.drop place = ts ++ v.rest from hts, List.drop_left]
    obtain ⟨rest', depth', errors'⟩ := v
    obtain rfl : depth' = depth := hv.depth
    obtain rfl : errors' = errors ++ noted := hnoted.symm
    obtain rfl : rest' = tokens.drop (place + ts.length) := hplace
    obtain ⟨resumed, rfl, hresumes⟩ := resumes_of_synchronized? hsync
    refine ⟨noted, token, expectation, place + ts.length, resumed, Nat.le_add_right _ _, ?_,
      Rule.bareDeclaration.concludes_of_eq least hb nofun, hresumes, rfl⟩
    rw [← List.head?_drop, show tokens.drop (place + ts.length) = token :: rest from hr]
    rfl
  · have hnext := hc.next hr hs h
    rw [Option.toList_none, List.append_nil] at hnext
    exact hnext.concludes hl hothers

/-- The tokens of a block whose second declaration is broken. -/
def brokenBlock : List Token :=
  [⟨.leftBrace, "\x7b", none, 1⟩, ⟨.identifier, "f", none, 1⟩, ⟨.semicolon, ";", none, 1⟩,
    ⟨.minus, "-", none, 2⟩, ⟨.elseWord, "else", none, 2⟩, ⟨.semicolon, ";", none, 2⟩,
    ⟨.printWord, "print", none, 3⟩, ⟨.identifier, "f", none, 3⟩, ⟨.semicolon, ";", none, 3⟩,
    ⟨.rightBrace, "\x7d", none, 4⟩, Token.endOfSource 4]

/-- The declaration fails, and the block has the statement before it and the one behind it. -/
theorem declaration_recovers_brokenBlock :
    Concludes declaration ⟨brokenBlock.drop 3, 0, []⟩ (.ok none ⟨brokenBlock.drop 6, 0,
        [⟨⟨.elseWord, "else", none, 2⟩, .expected .expression⟩]⟩) ∧
      (∃ failed resumed, 3 ≤ failed ∧ Resumes brokenBlock failed resumed ∧
        brokenBlock.drop 6 = brokenBlock.drop resumed) ∧
      Concludes blockItems ⟨brokenBlock.drop 1, 0, []⟩
        (.ok [.expression (.lookup ⟨.identifier, "f", none, 1⟩),
            .print (.lookup ⟨.identifier, "f", none, 3⟩)]
          ⟨brokenBlock.drop 9, 0, [⟨⟨.elseWord, "else", none, 2⟩, .expected .expression⟩]⟩) := by
  have hfails : Concludes declaration ⟨brokenBlock.drop 3, 0, []⟩ (.ok none ⟨brokenBlock.drop 6, 0,
      [⟨⟨.elseWord, "else", none, 2⟩, .expected .expression⟩]⟩) :=
    Rule.declaration.concludes_of_eq 40 rfl nofun
  have hbefore : Concludes declaration ⟨brokenBlock.drop 1, 0, []⟩
      (.ok (some (.expression (.lookup ⟨.identifier, "f", none, 1⟩)))
        ⟨brokenBlock.drop 3, 0, []⟩) :=
    Rule.declaration.concludes_of_eq 40 rfl nofun
  have hbehind : Concludes blockItems ⟨brokenBlock.drop 6, 0,
      [⟨⟨.elseWord, "else", none, 2⟩, .expected .expression⟩]⟩
      (.ok [.print (.lookup ⟨.identifier, "f", none, 3⟩)] ⟨brokenBlock.drop 9, 0,
        [⟨⟨.elseWord, "else", none, 2⟩, .expected .expression⟩]⟩) :=
    Rule.blockItems.concludes_of_eq 40 rfl nofun
  obtain ⟨⟨_, _, _, failed, resumed, hle, -, -, hresumes, ht⟩, hcollects⟩ :=
    declaration_recovers hfails
  refine ⟨hfails, ⟨failed, resumed, hle, hresumes, congrArg ParserState.rest ht⟩, ?_⟩
  exact hcollects _ _ .block ⟨brokenBlock.drop 1, 0, []⟩ _ _ _ rfl rfl
    (.next .nothing rfl rfl hbefore) _ _ hbehind

end Parser

end LoxLang
