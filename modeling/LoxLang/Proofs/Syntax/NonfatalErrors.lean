/-
**Exactly the violations are reported, and nothing is lost.**

The parser goes on after an assignment to anything but a name, an argument or a parameter too many,
and a return outside function bodies.  So it reads every program of the relaxed grammar, whichever
of them come together and however they are nested: all declarations, all arguments and all
parameters are in the tree, and the errors recorded are the violations of the derivation, each
once.  The parser records an error when it sees it, and so in another order than they stand in the
tree; the statement is about the errors up to their order.

* `LoxLang.Relaxed.Expression.lenient`, `LoxLang.Relaxed.Statement.lenient` — a derivation and the
  errors that the parser notes, one after the other;
* `LoxLang.Parser.declared_of_lenient` — no declaration is dropped;
* `LoxLang.parse_relaxed` — **the tree and the errors of a program of the relaxed grammar**.
-/

import LoxLang.Proofs.Syntax.ParserComplete
import LoxLang.Proofs.Syntax.ParserRecovery
import LoxLang.Proofs.Syntax.RelaxedGrammar

set_option relaxedAutoImplicit false
set_option autoImplicit false

namespace LoxLang.Relaxed

/-! ### Names -/

/-- An expression that is nothing but a name is read as one. -/
theorem Expression.kept_of_name? {layer : Lenient.Layer} (e : Expression layer) {name : Token}
    (h : e.name? = some name) : e.kept = .lookup name := by
  cases e with
  | ofOperand e => exact e.kept_of_name? h
  | ofTighter e => exact e.kept_of_name? h
  | ofUnary e => exact e.kept_of_name? h
  | ofCall e => exact e.kept_of_name? h
  | ofPrimary e => exact e.kept_of_name? h
  | lookup found => exact congrArg Expr.lookup (Option.some.inj h)
  | _ => cases h

theorem node_ne_lookup (level : Level) (x y : Expr) (operator name : Token) :
    level.node x operator y ≠ .lookup name := by
  unfold Level.node
  split <;> nofun

/-- Apart from assignments, which may be read as their right side, no other expression is. -/
theorem Expression.kept_ne_lookup : ∀ {layer : Lenient.Layer} (e : Expression layer),
    layer ≠ .assignment → e.name? = none → ∀ name, e.kept ≠ .lookup name
  | _, .assign _ _ _, hl, _, _ => absurd rfl hl
  | _, .ofOperand _, hl, _, _ => absurd rfl hl
  | _, .operation _ _ _, _, _, _ => node_ne_lookup _ _ _ _ _
  | _, .ofTighter e, _, h, name => e.kept_ne_lookup nofun h name
  | _, .ofUnary e, _, h, name => e.kept_ne_lookup nofun h name
  | _, .unary _ _, _, _, _ => nofun
  | _, .ofCall e, _, h, name => e.kept_ne_lookup nofun h name
  | _, .callEmpty _ _ _, _, _, _ => nofun
  | _, .call _ _ _ _, _, _, _ => nofun
  | _, .ofPrimary e, _, h, name => e.kept_ne_lookup nofun h name
  | _, .literal _ _ _, _, _, _ => nofun
  | _, .lookup _, _, h, _ => nomatch h
  | _, .grouping _ _ _, _, _, _ => nofun

/-! ### Expressions -/

theorem Expression.head?_tokens {layer : Lenient.Layer} (e : Expression layer) :
    e.tokens.head? = some e.first :=
  List.head?_eq_some_head e.tokens_ne_nil

/-- With one more in front the first in excess is the one in front, or in the rest. -/
theorem map_drop_cons {α : Type} (before : Nat) (x : α) (xs : List α) (place : α → Token)
    (cause : SyntaxCause) :
    ((x :: xs).drop (maxArguments - before)).map (fun y => (⟨place y, cause⟩ : SyntaxError)) =
      Lenient.excess before (place x) cause ++
        (xs.drop (maxArguments - (before + 1))).map fun y => ⟨place y, cause⟩ := by
  unfold Lenient.excess
  split
  · next h =>
      rw [Nat.sub_eq_zero_of_le h, Nat.sub_eq_zero_of_le (Nat.le_succ_of_le h)]
      rfl
  · next h =>
      have hsub : maxArguments - before = maxArguments - (before + 1) + 1 := by omega
      rw [hsub]
      rfl

/-- A literal is read, and nothing is noted. -/
theorem Denotes.lenient {t : Token} {v : Literal} (h : Denotes t v) :
    Lenient.Expression .primary [t] (.literal v) [] := by
  cases h with
  | true h => exact .true h
  | false h => exact .false h
  | nil h => exact .nil h
  | literal h hv => exact .literal h hv

mutual

/-- An expression is read, and its violations are noted in some order. -/
theorem Expression.lenient : ∀ {layer : Lenient.Layer} (e : Expression layer),
    ∃ es, Lenient.Expression layer e.tokens e.kept es ∧ es.Perm e.violations
  | _, .assign target equals value => by
      obtain ⟨es, h, hp⟩ := target.lenient
      obtain ⟨fs, h', hp'⟩ := value.lenient
      cases hname : target.name? with
      | some name =>
          refine ⟨es ++ fs, ?_, ?_⟩
          · rw [target.kept_of_name? hname] at h
            simpa only [Expression.tokens, Expression.kept, hname] using
              Lenient.Expression.assign h equals.2 h'
          · simpa [Expression.violations, hname] using hp.append hp'
      | none =>
          refine ⟨es ++ (fs ++ [⟨equals.1, .invalidTarget⟩]), ?_, ?_⟩
          · simpa only [Expression.tokens, Expression.kept, hname] using
              Lenient.Expression.invalidAssign h (target.kept_ne_lookup nofun hname) equals.2 h'
          · -- The parser notes the target when it has read the right side.
            have hlast : (es ++ fs ++ [SyntaxError.mk equals.1 .invalidTarget]).Perm
                ([SyntaxError.mk equals.1 .invalidTarget] ++
                  (target.violations ++ value.violations)) :=
              List.perm_append_comm.trans ((hp.append hp').append_left _)
            simpa [Expression.violations, hname] using hlast
  | _, .ofOperand e =>
      have ⟨es, h, hp⟩ := e.lenient
      ⟨es, .ofOperand h, hp⟩
  | _, .operation left operator right =>
      have ⟨es, h, hp⟩ := left.lenient
      have ⟨fs, h', hp'⟩ := right.lenient
      ⟨es ++ fs, .operation h operator.2 h', hp.append hp'⟩
  | _, .ofTighter e =>
      have ⟨es, h, hp⟩ := e.lenient
      ⟨es, .ofTighter h, hp⟩
  | _, .ofUnary e =>
      have ⟨es, h, hp⟩ := e.lenient
      ⟨es, .ofUnary h, hp⟩
  | _, .unary operator right =>
      have ⟨es, h, hp⟩ := right.lenient
      ⟨es, .unary operator.2 h, hp⟩
  | _, .ofCall e =>
      have ⟨es, h, hp⟩ := e.lenient
      ⟨es, .ofCall h, hp⟩
  | _, .callEmpty callee opening closing => by
      obtain ⟨es, h, hp⟩ := callee.lenient
      refine ⟨es, ?_, hp⟩
      have hcall := Lenient.Expression.call h opening.2 .none closing.2
      rwa [List.append_nil] at hcall
  | _, .call callee opening arguments closing => by
      obtain ⟨es, h, hp⟩ := callee.lenient
      obtain ⟨fs, h', hp'⟩ := arguments.lenient 0
      refine ⟨es ++ fs, .call h opening.2 (.some h') closing.2, (hp.append hp').trans ?_⟩
      rw [Expression.violations]
      exact List.perm_append_comm_assoc _ _ _
  | _, .ofPrimary e =>
      have ⟨es, h, hp⟩ := e.lenient
      ⟨es, .ofPrimary h, hp⟩
  | _, .literal token value h => ⟨[], h.lenient, .refl _⟩
  | _, .lookup name => ⟨[], .lookup name.2, .refl _⟩
  | _, .grouping opening inner closing =>
      have ⟨es, h, hp⟩ := inner.lenient
      ⟨es, .grouping opening.2 h closing.2, hp⟩

/-- Arguments after the given number of them are read, and those in excess are noted. -/
theorem Arguments.lenient : ∀ (arguments : Arguments) (before : Nat),
    ∃ es, Lenient.Arguments before arguments.tokens arguments.kept es ∧
      es.Perm ((arguments.toList.drop (maxArguments - before)).map
        (fun e => (⟨e.first, .tooManyArguments⟩ : SyntaxError)) ++ arguments.violations)
  | .one e, before => by
      obtain ⟨es, h, hp⟩ := e.lenient
      refine ⟨_, .one e.head?_tokens h, ?_⟩
      rw [Arguments.toList, map_drop_cons, List.drop_nil, List.map_nil, List.append_nil]
      exact hp.append_left _
  | .more e comma others, before => by
      obtain ⟨es, h, hp⟩ := e.lenient
      obtain ⟨fs, h', hp'⟩ := others.lenient (before + 1)
      refine ⟨_, .more e.head?_tokens h comma.2 h', ?_⟩
      rw [Arguments.toList, map_drop_cons, List.append_assoc]
      exact ((hp.append hp').trans (List.perm_append_comm_assoc _ _ _)).append_left _

end

/-! ### Simple phrases -/

/-- Parameters after the given number of them are read, and those in excess are noted. -/
theorem Parameters.lenient : ∀ (parameters : Parameters) (before : Nat),
    Lenient.Parameters before parameters.tokens parameters.names
      ((parameters.names.drop (maxArguments - before)).map fun name => ⟨name, .tooManyParameters⟩)
  | .one name, before => by
      rw [Parameters.names, map_drop_cons before name.1 [] fun token => token, List.drop_nil,
        List.map_nil, List.append_nil]
      exact .one name.2
  | .more name comma others, before => by
      rw [Parameters.names, map_drop_cons before name.1 others.names fun token => token]
      exact .more name.2 comma.2 (others.lenient (before + 1))

theorem ParameterList.lenient : ∀ parameters : ParameterList,
    Lenient.ParameterList parameters.tokens parameters.names parameters.violations
  | none => by
      rw [violations, names, List.drop_nil, List.map_nil]
      exact .none
  | some parameters => .some (parameters.lenient 0)

theorem Optional.lenient : ∀ value : Optional,
    ∃ es, Lenient.Optional value.tokens value.kept es ∧ es.Perm value.violations
  | none => ⟨[], .none, .refl _⟩
  | some e =>
      have ⟨es, h, hp⟩ := e.lenient
      ⟨es, .some h, hp⟩

theorem Variable.lenient : ∀ declaration : Variable,
    ∃ es, Lenient.Variable declaration.tokens declaration.kept es ∧ es.Perm declaration.violations
  | .bare var name semicolon => ⟨[], .bare var.2 name.2 semicolon.2, .refl _⟩
  | .initialized var name equals value semicolon =>
      have ⟨es, h, hp⟩ := value.lenient
      ⟨es, .initialized var.2 name.2 equals.2 h semicolon.2, hp⟩

theorem Initializer.lenient : ∀ first : Initializer,
    ∃ es, Lenient.Initializer first.tokens first.kept es ∧ es.Perm first.violations
  | .none semicolon => ⟨[], .none semicolon.2, .refl _⟩
  | .variable declaration =>
      have ⟨es, h, hp⟩ := declaration.lenient
      ⟨es, .variable h, hp⟩
  | .expression value semicolon =>
      have ⟨es, h, hp⟩ := value.lenient
      ⟨es, .expression h semicolon.2, hp⟩

/-! ### Statements and declarations -/

mutual

/-- A statement is read, and its violations are noted in some order. -/
theorem Statement.lenient (inside : Bool) : ∀ {dangling : Bool} (s : Statement dangling),
    ∃ es, Lenient.Statement inside dangling s.tokens s.kept es ∧ es.Perm (s.violations inside)
  | _, .expression value semicolon =>
      have ⟨es, h, hp⟩ := value.lenient
      ⟨es, .expression h semicolon.2, hp⟩
  | _, .print word value semicolon =>
      have ⟨es, h, hp⟩ := value.lenient
      ⟨es, .print word.2 h semicolon.2, hp⟩
  | _, .giveBack word value semicolon =>
      have ⟨_, h, hp⟩ := value.lenient
      ⟨_, .giveBack word.2 h semicolon.2, hp.append_left _⟩
  | _, .block opening body closing =>
      have ⟨es, h, hp⟩ := Declarations.lenient inside body
      ⟨es, .block opening.2 h closing.2, hp⟩
  | _, .branch word opening condition closing thenBranch =>
      have ⟨_, hc, hpc⟩ := condition.lenient
      have ⟨_, h, hp⟩ := Statement.lenient inside thenBranch
      ⟨_, .branch word.2 opening.2 hc closing.2 h, hpc.append hp⟩
  | _, .branchElse word opening condition closing thenBranch other elseBranch =>
      have ⟨_, hc, hpc⟩ := condition.lenient
      have ⟨_, h, hp⟩ := Statement.lenient inside thenBranch
      have ⟨_, h', hp'⟩ := Statement.lenient inside elseBranch
      ⟨_, .branchElse word.2 opening.2 hc closing.2 h other.2 h', hpc.append (hp.append hp')⟩
  | _, .loop word opening condition closing body =>
      have ⟨_, hc, hpc⟩ := condition.lenient
      have ⟨_, h, hp⟩ := Statement.lenient inside body
      ⟨_, .loop word.2 opening.2 hc closing.2 h, hpc.append hp⟩
  | _, .forLoop word opening first condition semicolon increment closing body =>
      have ⟨_, hf, hpf⟩ := first.lenient
      have ⟨_, hc, hpc⟩ := condition.lenient
      have ⟨_, hi, hpi⟩ := increment.lenient
      have ⟨_, h, hp⟩ := Statement.lenient inside body
      ⟨_, .forLoop word.2 opening.2 hf hc semicolon.2 hi closing.2 h,
        hpf.append (hpc.append (hpi.append hp))⟩

/-- A declaration is read, and its violations are noted in some order. -/
theorem Declaration.lenient (inside : Bool) : ∀ d : Declaration,
    ∃ es, Lenient.Declaration inside d.tokens d.kept es ∧ es.Perm (d.violations inside)
  | .function word name opening parameters closing brace body closingBrace =>
      have ⟨_, h, hp⟩ := Declarations.lenient true body
      ⟨_, .function word.2 name.2 opening.2 parameters.lenient closing.2 brace.2 h closingBrace.2,
        hp.append_left _⟩
  | .variable declaration =>
      have ⟨es, h, hp⟩ := declaration.lenient
      ⟨es, .variable h, hp⟩
  | .statement s =>
      have ⟨es, h, hp⟩ := Statement.lenient inside s
      ⟨es, .statement h, hp⟩

theorem Declarations.lenient (inside : Bool) : ∀ ds : Declarations,
    ∃ es, Lenient.Declarations inside ds.tokens ds.kept es ∧ es.Perm (ds.violations inside)
  | .nil => ⟨[], .nil, .refl _⟩
  | .cons first others =>
      have ⟨_, h, hp⟩ := Declaration.lenient inside first
      have ⟨_, h', hp'⟩ := Declarations.lenient inside others
      ⟨_, .cons h h', hp.append hp'⟩

end

/-- **A program is read, and its violations are noted in some order.** -/
theorem Program.lenient (program : Program) :
    ∃ es, Lenient.Program program.tokens program.kept es ∧ es.Perm program.violations := by
  obtain ⟨es, h, hp⟩ := program.body.lenient false
  exact ⟨es, .intro h program.ending.2, hp⟩

end LoxLang.Relaxed

namespace LoxLang

/-! ### No declaration is dropped -/

namespace Parser

/-- In front of the end, declarations in a row are read one by one, and none of them is given up. -/
theorem declared_of_lenient {inside : Bool} {ending : Token} (he : ending.kind = .endOfSource)
    {ss : List Stmt} : ∀ {ts : List Token} {es : List SyntaxError},
      Lenient.Declarations inside ts ss es → ∀ {depth : Nat}, inside = decide (0 < depth) →
        ∀ fuel errors, ∀ step ∈ outlineFrom fuel ⟨ts ++ [ending], depth, errors⟩,
          step.declaration ≠ none := by
  induction ss with
  | nil =>
      intro ts es h depth _ fuel errors step hstep
      cases h
      cases fuel with
      | zero => cases hstep
      | succ fuel =>
          rw [outlineFrom_of_isEnd rfl (Token.isEnd_iff.2 he)] at hstep
          cases hstep
  | cons s ss ih =>
      intro ts es h depth hd fuel errors step hstep
      cases h with
      | @cons _ ts us _ _ es _ h hs =>
          cases fuel with
          | zero => cases hstep
          | succ fuel =>
              have hnext : Lenient.Ahead (us ++ [ending]) (· ≠ .elseWord) :=
                hs.ahead (Lenient.ahead_cons (by simp [he]))
              obtain ⟨token, rest, hts, -, -, hend⟩ := h.ahead
              -- The first declaration is read in full, and the outline goes on with the rest.
              have hread := declaration_complete h (us ++ [ending]) depth hd hnext fuel errors
              rw [List.append_assoc] at hstep
              obtain ⟨found, t, hfound, hstep⟩ :=
                mem_outlineFrom (by rw [hts]; rfl) (Token.isEnd_eq_false hend) hstep
              rw [hfound] at hread
              obtain ⟨rfl, rfl⟩ := Reply.ok.inj (hread.resolve_left nofun)
              rcases hstep with rfl | hlater
              · exact nofun
              · exact ih hs hd fuel _ step hlater

end Parser

theorem Relaxed.Program.declared (program : Relaxed.Program) :
    ∀ step ∈ outline program.tokens, step.declaration ≠ none := by
  obtain ⟨es, h, -⟩ := program.body.lenient false
  exact Parser.declared_of_lenient program.ending.2 h rfl (parserFuel program.tokens) []

/-- **Exactly the violations are reported, and nothing is lost.**  A program of the relaxed grammar
is parsed to its tree; the errors recorded are its violations, in some order; and each declaration
at the top is read. -/
theorem parse_relaxed (program : Relaxed.Program) :
    ∃ t, parse program.tokens = .ok program.kept t ∧ t.errors.Perm program.violations ∧
      (outline program.tokens).map OutlineStep.declaration = program.kept.map some := by
  obtain ⟨es, h, hp⟩ := program.lenient
  obtain ⟨ending, -, hparse⟩ := parse_of_lenient h
  refine ⟨_, hparse, hp, ?_⟩
  have hsome : ∀ found ∈ (outline program.tokens).map OutlineStep.declaration,
      found.isSome = true := by
    intro found hfound
    obtain ⟨step, hstep, rfl⟩ := List.mem_map.1 hfound
    exact Option.isSome_iff_ne_none.2 (program.declared step hstep)
  rw [← Parser.filterMap_outlineFrom hparse, List.map_filterMap_some_eq_filter_map_isSome]
  exact (List.filter_eq_self.2 hsome).symm

end LoxLang
