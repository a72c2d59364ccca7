/-
**What is read stays read when more text follows.**

Every rule decides by the token ahead.  So two runs on texts that begin alike agree as long as the
first has not come to its end: with more tokens in place of the end, a rule that stopped *short* of
the end does the same, be it that it answers or that it gives up, and recovery within it finds the
same boundaries.

A rule that came to the end may go on there when more follows: an operator, a call, an argument.  A
statement does not.  Its last token is a semicolon or a brace that it has read, so that all its
optional parts were decided short of the end; only an if statement looks further, for an else.  So a
declaration that is read *through* is read the same in front of anything but an else, and parsing
goes declaration by declaration.

* `LoxLang.Parser.AgreeShort`, `LoxLang.Parser.congruence_agreeShort` — every rule agrees short of
  the end;
* `LoxLang.Parser.AgreeThrough`, `LoxLang.Parser.ReadsThrough` — agreeing also in front of the end;
* `LoxLang.Parser.readsThrough_bareDeclaration` — a declaration that is read is read through;
* `LoxLang.parse_append` — **parsing two texts in a row**.
-/

import LoxLang.Proofs.Syntax.ParserRecovery

set_option relaxedAutoImplicit false
set_option autoImplicit false

namespace LoxLang

/-! ### Other tokens ahead -/

namespace Reply

variable {α : Type}

/-- The state where the parser stopped: behind an answer, or where it gave up. -/
def stop? : Reply α → Option ParserState
  | .ok _ t => some t
  | .gaveUp t => some t
  | .fault _ _ => none
  | .outOfFuel => none

/-- The same reply, with other tokens ahead. -/
def withRest (r : Reply α) (rest : List Token) : Reply α :=
  match r with
  | .ok value t => .ok value { t with rest }
  | .gaveUp t => .gaveUp { t with rest }
  | .fault why t => .fault why { t with rest }
  | .outOfFuel => .outOfFuel

theorem stop?_of_ok {r : Reply α} {a : α} {t : ParserState} (h : r = .ok a t) :
    r.stop? = some t := by
  rw [h]
  rfl

theorem stop?_of_gaveUp {r : Reply α} {t : ParserState} (h : r = .gaveUp t) :
    r.stop? = some t := by
  rw [h]
  rfl

theorem stop?_leave (r : Reply α) :
    r.leave.stop? = r.stop?.map fun t => { t with depth := t.depth - 1 } := by
  cases r <;> rfl

theorem stop?_withRest (r : Reply α) (rest : List Token) :
    (r.withRest rest).stop? = r.stop?.map fun t => { t with rest } := by
  cases r <;> rfl

theorem withRest_withRest (r : Reply α) (rest rest' : List Token) :
    (r.withRest rest).withRest rest' = r.withRest rest' := by
  cases r <;> rfl

theorem withRest_leave (r : Reply α) (rest : List Token) :
    r.leave.withRest rest = (r.withRest rest).leave := by
  cases r <;> rfl

theorem From.reaches_stop {s t : ParserState} {r : Reply α} (h : r.From s) (hr : r.stop? = some t) :
    s.Reaches t := by
  cases r with
  | ok value u =>
      obtain rfl := Option.some.inj hr
      exact h
  | gaveUp u =>
      obtain rfl := Option.some.inj hr
      exact ParserState.GivesUp.reaches h
  | fault why u => cases hr
  | outOfFuel => cases hr

end Reply

/-- A parser does not go past the end: it leaves the last tokens of a text and the end. -/
theorem ParserState.Reaches.suffix {ts : List Token} {ending : Token} {depth : Nat}
    {errors : List SyntaxError} {t : ParserState} (he : ending.isEnd = true)
    (h : ParserState.Reaches ⟨ts ++ [ending], depth, errors⟩ t) :
    ∃ us, us <:+ ts ∧ t.rest = us ++ [ending] := by
  obtain ⟨read, hread, hend⟩ := h.read
  rcases List.append_eq_append_iff.1 hread with ⟨more, rfl, hmore⟩ | ⟨us, rfl, hus⟩
  · rcases List.append_eq_singleton_iff.1 hmore.symm with ⟨rfl, ht⟩ | ⟨rfl, -⟩
    · exact ⟨[], List.nil_suffix, ht⟩
    · have hnone := hend ending (List.mem_append_right _ List.mem_cons_self)
      rw [he] at hnone
      cases hnone
  · exact ⟨us, List.suffix_append _ _, hus⟩

namespace Parser

variable {α β : Type} {ending : Token} {more : List Token}

/-! ### In front of the end -/

/-- What the parser has left of a text where it stops are its last tokens and the end. -/
def LeavesEnd (ending : Token) (p : Parser α) : Prop :=
  ∀ ts depth errors t, (p ⟨ts ++ [ending], depth, errors⟩).stop? = some t →
    ∃ us, us <:+ ts ∧ t.rest = us ++ [ending]

theorem Proceeds.leavesEnd {p : Parser α} (hp : p.Proceeds) (he : ending.isEnd = true) :
    LeavesEnd ending p := fun _ _ _ _ ht => ((hp _).reaches_stop ht).suffix he

theorem leavesEnd_pure (a : α) : LeavesEnd ending (Pure.pure a : Parser α) := by
  intro ts depth errors t ht
  obtain rfl := Option.some.inj ht
  exact ⟨ts, List.suffix_refl _, rfl⟩

/-- The state where it stops has the end ahead again, behind what is left of the text. -/
theorem LeavesEnd.eq_of_stop {p : Parser α} (hp : LeavesEnd ending p) {ts : List Token}
    {depth : Nat} {errors : List SyntaxError} {t : ParserState}
    (ht : (p ⟨ts ++ [ending], depth, errors⟩).stop? = some t) :
    ∃ us, us <:+ ts ∧ t = ⟨us ++ [ending], t.depth, t.errors⟩ := by
  obtain ⟨us, hus, hu⟩ := hp ts depth errors t ht
  exact ⟨us, hus, by rw [← hu]⟩

theorem LeavesEnd.bind {p : Parser α} {f : α → Parser β} (hp : LeavesEnd ending p)
    (hf : ∀ a, LeavesEnd ending (f a)) : LeavesEnd ending (p >>= f) := by
  intro ts depth errors t ht
  rw [bind_apply] at ht
  cases hr : p ⟨ts ++ [ending], depth, errors⟩ with
  | ok a u =>
      obtain ⟨us, hus, hu⟩ := hp.eq_of_stop (Reply.stop?_of_ok hr)
      rw [hr, hu] at ht
      obtain ⟨vs, hvs, hv⟩ := hf a us _ _ t ht
      exact ⟨vs, hvs.trans hus, hv⟩
  | gaveUp u =>
      rw [hr] at ht
      obtain rfl := Option.some.inj ht
      exact hp ts depth errors _ (Reply.stop?_of_gaveUp hr)
  | fault why u =>
      rw [hr] at ht
      cases ht
  | outOfFuel =>
      rw [hr] at ht
      cases ht

theorem LeavesEnd.nested {p : Parser α} (hp : LeavesEnd ending p) :
    LeavesEnd ending (nested p) := by
  intro ts depth errors t ht
  rw [nested_apply, Reply.stop?_leave] at ht
  obtain ⟨u, hu, rfl⟩ := Option.map_eq_some_iff.1 ht
  exact hp ts (depth + 1) errors u hu

/-- What stops short of the end did not start at the end. -/
theorem LeavesEnd.ne_nil {p : Parser α} (hp : LeavesEnd ending p) {ts us : List Token} {depth : Nat}
    {errors : List SyntaxError} {t : ParserState}
    (ht : (p ⟨ts ++ [ending], depth, errors⟩).stop? = some t) (hu : t.rest = us ++ [ending])
    (hne : us ≠ []) : ts ≠ [] := by
  rintro rfl
  obtain ⟨vs, hsuffix, hv⟩ := hp _ _ _ _ ht
  rw [List.suffix_nil.1 hsuffix, hu] at hv
  exact hne (List.append_cancel_right hv)

/-! ### Short of the end -/

/-- Where the first parser stops short of the end, the second stops in the same way with other
tokens in place of the end, or runs out of fuel. -/
structure AgreeShort (ending : Token) (more : List Token) (α : Type) (p q : Parser α) : Prop where
  leaves : LeavesEnd ending p
  short : ∀ {ts us depth errors t}, (p ⟨ts ++ [ending], depth, errors⟩).stop? = some t →
    t.rest = us ++ [ending] → us ≠ [] →
      q ⟨ts ++ more, depth, errors⟩ = .outOfFuel ∨ q ⟨ts ++ more, depth, errors⟩ =
        (p ⟨ts ++ [ending], depth, errors⟩).withRest (us ++ more)

theorem agreeShort_pure (a : α) : AgreeShort ending more α (Pure.pure a) (Pure.pure a) where
  leaves := leavesEnd_pure a
  short := by
    intro ts us depth errors t ht hu _
    obtain rfl := Option.some.inj ht
    obtain rfl := List.append_cancel_right hu
    exact .inr rfl

theorem AgreeShort.bind {p q : Parser α} {f g : α → Parser β}
    (hp : AgreeShort ending more α p q) (hf : ∀ a, AgreeShort ending more β (f a) (g a)) :
    AgreeShort ending more β (p >>= f) (q >>= g) where
  leaves := hp.leaves.bind fun a => (hf a).leaves
  short := by
    intro ts vs depth errors t ht hv hne
    rw [bind_apply] at ht ⊢
    rw [bind_apply]
    cases hr : p ⟨ts ++ [ending], depth, errors⟩ with
    | ok a u =>
        have hstop := Reply.stop?_of_ok hr
        obtain ⟨us, -, hu⟩ := hp.leaves.eq_of_stop hstop
        rw [hr, hu] at ht
        -- The second part leaves tokens in front of the end, so the first part did.
        have hus : us ≠ [] := (hf a).leaves.ne_nil ht hv hne
        rcases hp.short hstop (congrArg ParserState.rest hu) hus with hq | hq
        · left
          rw [hq]
        · rw [hq, hr, hu]
          exact (hf a).short ht hv hne
    | gaveUp u =>
        rw [hr] at ht
        obtain rfl := Option.some.inj ht
        rcases hp.short (Reply.stop?_of_gaveUp hr) hv hne with hq | hq
        · left
          rw [hq]
        · right
          rw [hq, hr]
          rfl
    | fault why u =>
        rw [hr] at ht
        cases ht
    | outOfFuel =>
        rw [hr] at ht
        cases ht

theorem AgreeShort.nested {p q : Parser α} (hp : AgreeShort ending more α p q) :
    AgreeShort ending more α (nested p) (nested q) where
  leaves := hp.leaves.nested
  short := by
    intro ts us depth errors t ht hu hne
    rw [nested_apply, Reply.stop?_leave] at ht
    obtain ⟨u, hstop, rfl⟩ := Option.map_eq_some_iff.1 ht
    rw [nested_apply, nested_apply, Reply.withRest_leave]
    rcases hp.short hstop hu hne with hq | hq
    · left
      rw [hq]
      rfl
    · right
      rw [hq]

/-- A boundary short of the end is found as well if more follows. -/
theorem boundary?_append {ts us : List Token} (hne : us ≠ []) : ∀ {before : TokenKind},
    boundary? before (ts ++ [ending]) = some (us ++ [ending]) →
      boundary? before (ts ++ more) = some (us ++ more) := by
  induction ts with
  | nil =>
      intro before h
      rw [List.nil_append, boundary?] at h
      split at h
      · have hnil : [] = us := List.append_cancel_right (Option.some.inj h)
        exact absurd hnil.symm hne
      · cases h
  | cons token ts ih =>
      intro before h
      rw [List.cons_append, boundary?] at h ⊢
      split at h
      · next hstop =>
          rw [if_pos hstop]
          obtain rfl : token :: ts = us := List.append_cancel_right (Option.some.inj h)
          rfl
      · next hgo =>
          rw [if_neg hgo]
          exact ih h

theorem synchronized?_append {ts us : List Token} (hne : us ≠ [])
    (h : synchronized? (ts ++ [ending]) = some (us ++ [ending])) :
    synchronized? (ts ++ more) = some (us ++ more) := by
  cases ts with
  | nil =>
      rw [List.nil_append, synchronized?] at h
      split at h
      · have hnil : [] = us := List.append_cancel_right (Option.some.inj h)
        exact absurd hnil.symm hne
      · cases h
  | cons token ts =>
      rw [List.cons_append, synchronized?] at h ⊢
      split at h
      · next hend =>
          rw [if_pos hend]
          obtain rfl : token :: ts = us := List.append_cancel_right (Option.some.inj h)
          rfl
      · next hgo =>
          rw [if_neg hgo]
          exact boundary?_append hne h

theorem agreeShort_synchronize (he : ending.isEnd = true) :
    AgreeShort ending more Unit synchronize synchronize where
  leaves := proceeds_synchronize.leavesEnd he
  short := by
    intro ts us depth errors t ht hu hne
    unfold synchronize at ht ⊢
    dsimp only at ht ⊢
    cases hsync : synchronized? (ts ++ [ending]) with
    | none =>
        rw [hsync] at ht
        cases ht
    | some found =>
        rw [hsync] at ht
        obtain rfl := Option.some.inj ht
        obtain rfl : found = us ++ [ending] := hu
        rw [synchronized?_append hne hsync]
        exact .inr rfl

/-- Recovery itself: tokens are skipped, and there is no answer. -/
theorem agreeShort_skip (he : ending.isEnd = true) :
    AgreeShort ending more (Option α) (synchronize >>= fun _ => Pure.pure none)
      (synchronize >>= fun _ => Pure.pure none) :=
  (agreeShort_synchronize he).bind fun _ => agreeShort_pure none

theorem leavesEnd_skip (he : ending.isEnd = true) :
    LeavesEnd ending (synchronize >>= fun _ => Pure.pure (none : Option α)) :=
  (proceeds_synchronize.leavesEnd he).bind fun _ => leavesEnd_pure none

theorem LeavesEnd.recovering (he : ending.isEnd = true) {p : Parser α} (hp : LeavesEnd ending p) :
    LeavesEnd ending (recovering p) := by
  intro ts depth errors t ht
  unfold Parser.recovering at ht
  cases hr : p ⟨ts ++ [ending], depth, errors⟩ with
  | ok a u =>
      rw [hr] at ht
      obtain rfl := Option.some.inj ht
      exact hp ts depth errors _ (Reply.stop?_of_ok hr)
  | gaveUp u =>
      obtain ⟨us, hus, hu⟩ := hp.eq_of_stop (Reply.stop?_of_gaveUp hr)
      rw [hr, hu] at ht
      obtain ⟨vs, hvs, hv⟩ := leavesEnd_skip he us _ _ t ht
      exact ⟨vs, hvs.trans hus, hv⟩
  | fault why u =>
      rw [hr] at ht
      cases ht
  | outOfFuel =>
      rw [hr] at ht
      cases ht

theorem AgreeShort.recovering (he : ending.isEnd = true) {p q : Parser α}
    (hp : AgreeShort ending more α p q) :
    AgreeShort ending more (Option α) (recovering p) (recovering q) where
  leaves := hp.leaves.recovering he
  short := by
    intro ts vs depth errors t ht hv hne
    unfold Parser.recovering at ht ⊢
    cases hr : p ⟨ts ++ [ending], depth, errors⟩ with
    | ok a u =>
        rw [hr] at ht
        obtain rfl := Option.some.inj ht
        rcases hp.short (Reply.stop?_of_ok hr) hv hne with hq | hq
        · left
          rw [hq]
        · right
          rw [hq, hr]
          rfl
    | gaveUp u =>
        have hstop := Reply.stop?_of_gaveUp hr
        obtain ⟨us, -, hu⟩ := hp.leaves.eq_of_stop hstop
        rw [hr, hu] at ht
        -- It gave up short of the end, since it goes on short of the end.
        have hus : us ≠ [] := (leavesEnd_skip he).ne_nil ht hv hne
        rcases hp.short hstop (congrArg ParserState.rest hu) hus with hq | hq
        · left
          rw [hq]
        · rw [hq, hr, hu]
          exact (agreeShort_skip he).short ht hv hne
    | fault why u =>
        rw [hr] at ht
        cases ht
    | outOfFuel =>
        rw [hr] at ht
        cases ht

/-- A parser that looks at the token ahead only, and reads it or does not. -/
theorem agreeShort_of_cons {p : Parser α} (hp : LeavesEnd ending p)
    (hcons : ∀ token depth errors, ∃ (keeps : Bool) (r : Reply α), ∀ rest,
      p ⟨token :: rest, depth, errors⟩ = r.withRest (if keeps then token :: rest else rest)) :
    AgreeShort ending more α p p where
  leaves := hp
  short := by
    intro ts us depth errors t ht hu hne
    cases ts with
    | nil => exact absurd rfl (hp.ne_nil ht hu hne)
    | cons token ts =>
        obtain ⟨keeps, r, hr⟩ := hcons token depth errors
        rw [List.cons_append, hr, Reply.stop?_withRest] at ht
        rw [List.cons_append, List.cons_append, hr, hr, Reply.withRest_withRest]
        obtain ⟨u, -, rfl⟩ := Option.map_eq_some_iff.1 ht
        right
        cases keeps with
        | true =>
            obtain rfl : token :: ts = us := List.append_cancel_right hu
            rfl
        | false =>
            obtain rfl : ts = us := List.append_cancel_right hu
            rfl

theorem leavesEnd_literalOf (token : Token) : LeavesEnd ending (literalOf token) := by
  intro ts depth errors t ht
  unfold literalOf at ht
  cases hv : token.literal with
  | none =>
      rw [hv] at ht
      cases ht
  | some value =>
      rw [hv] at ht
      obtain rfl := Option.some.inj ht
      exact ⟨ts, List.suffix_refl _, rfl⟩

/-- The small parsers look at the token ahead only. -/
theorem congruence_agreeShort (more : List Token) (he : ending.isEnd = true) :
    Congruence (AgreeShort ending more) where
  outOfFuel_left _ := ⟨proceeds_outOfFuel.leavesEnd he, fun h => by cases h⟩
  outOfFuel_right hp := ⟨hp.leavesEnd he, fun _ _ _ => .inl rfl⟩
  pure := agreeShort_pure
  peek := agreeShort_of_cons (proceeds_peek.leavesEnd he) fun token depth errors =>
    ⟨true, .ok token ⟨[], depth, errors⟩, fun _ => rfl⟩
  advance := by
    refine agreeShort_of_cons (proceeds_advance.leavesEnd he) fun token depth errors =>
      ⟨token.isEnd, .ok () ⟨[], depth, errors⟩, fun rest => ?_⟩
    unfold Parser.advance
    dsimp only
    cases token.isEnd <;> rfl
  check test := agreeShort_of_cons ((proceeds_check test).leavesEnd he) fun token depth errors =>
    ⟨true, .ok (!token.isEnd && test token.kind) ⟨[], depth, errors⟩, fun _ => rfl⟩
  accept test := by
    refine agreeShort_of_cons ((proceeds_accept test).leavesEnd he) fun token depth errors =>
      ⟨!(!token.isEnd && test token.kind), .ok
        (if !token.isEnd && test token.kind then some token else none) ⟨[], depth, errors⟩,
        fun rest => ?_⟩
    unfold Parser.accept
    dsimp only
    cases !token.isEnd && test token.kind <;> rfl
  note token cause := agreeShort_of_cons ((proceeds_note token cause).leavesEnd he)
    fun _ depth errors => ⟨true, .ok () ⟨[], depth, errors ++ [⟨token, cause⟩]⟩, fun _ => rfl⟩
  giveUp expectation := agreeShort_of_cons ((proceeds_giveUp expectation).leavesEnd he)
    fun token depth errors =>
      ⟨true, .gaveUp ⟨[], depth, errors ++ [⟨token, .expected expectation⟩]⟩, fun _ => rfl⟩
  literalOf token := by
    refine agreeShort_of_cons (leavesEnd_literalOf token) fun first depth errors =>
      ⟨true, literalOf token ⟨[], depth, errors⟩, fun rest => ?_⟩
    unfold Parser.literalOf
    cases token.literal <;> rfl
  depth := agreeShort_of_cons (proceeds_depth.leavesEnd he) fun _ depth errors =>
    ⟨true, .ok depth ⟨[], depth, errors⟩, fun _ => rfl⟩
  bind := AgreeShort.bind
  nested := AgreeShort.nested
  recovering := AgreeShort.recovering he

/-! ### Through the end -/

/-- Where the parser answers, be it in front of the end, it answers the same with other tokens in
place of the end, or runs out of fuel. -/
structure AnswersThrough (ending : Token) (more : List Token) (p : Parser α) : Prop where
  leaves : LeavesEnd ending p
  through : ∀ {ts us depth errors a t}, p ⟨ts ++ [ending], depth, errors⟩ = .ok a t →
    t.rest = us ++ [ending] → p ⟨ts ++ more, depth, errors⟩ = .outOfFuel ∨
      p ⟨ts ++ more, depth, errors⟩ = .ok a { t with rest := us ++ more }

/-- The parser answers through, and does not answer in front of the end without reading. -/
structure ReadsThrough (ending : Token) (more : List Token) (p : Parser α) : Prop
    extends AnswersThrough ending more p where
  refuses : ∀ {depth errors a t}, p ⟨[ending], depth, errors⟩ ≠ .ok a t

theorem answersThrough_pure (a : α) : AnswersThrough ending more (Pure.pure a : Parser α) where
  leaves := leavesEnd_pure a
  through := by
    intro ts us depth errors b t h hu
    obtain ⟨rfl, rfl⟩ := pure_eq_ok.1 h
    obtain rfl : ts = us := List.append_cancel_right hu
    exact .inr rfl

theorem AnswersThrough.bind {p : Parser α} {f : α → Parser β} (hp : AnswersThrough ending more p)
    (hf : ∀ a, AnswersThrough ending more (f a)) : AnswersThrough ending more (p >>= f) where
  leaves := hp.leaves.bind fun a => (hf a).leaves
  through := by
    intro ts vs depth errors b t h hv
    obtain ⟨a, u, hr, hb⟩ := bind_eq_ok.1 h
    obtain ⟨us, -, hu⟩ := hp.leaves.eq_of_stop (Reply.stop?_of_ok hr)
    rw [hu] at hb
    rw [bind_apply]
    rcases hp.through hr (congrArg ParserState.rest hu) with hq | hq
    · left
      rw [hq]
    · rw [hq]
      exact (hf a).through hb hv

/-- Behind a parser that reads through, one that answers through is enough. -/
theorem ReadsThrough.bind {p : Parser α} {f : α → Parser β} (hp : ReadsThrough ending more p)
    (hf : ∀ a, AnswersThrough ending more (f a)) : ReadsThrough ending more (p >>= f) where
  toAnswersThrough := hp.toAnswersThrough.bind hf
  refuses := by
    intro depth errors b t h
    obtain ⟨a, u, hr, -⟩ := bind_eq_ok.1 h
    exact hp.refuses hr

/-- In front of a parser that reads through, it is enough to agree short of the end. -/
theorem AgreeShort.bind_readsThrough {p : Parser α} {f : α → Parser β}
    (hp : AgreeShort ending more α p p) (hf : ∀ a, ReadsThrough ending more (f a)) :
    ReadsThrough ending more (p >>= f) where
  leaves := hp.leaves.bind fun a => (hf a).leaves
  through := by
    intro ts vs depth errors b t h hv
    obtain ⟨a, u, hr, hb⟩ := bind_eq_ok.1 h
    obtain ⟨us, -, hu⟩ := hp.leaves.eq_of_stop (Reply.stop?_of_ok hr)
    rw [hu] at hb
    have hus : us ≠ [] := by
      rintro rfl
      exact (hf a).refuses hb
    rw [bind_apply]
    rcases hp.short (Reply.stop?_of_ok hr) (congrArg ParserState.rest hu) hus with hq | hq
    · left
      rw [hq]
    · rw [hq, hr]
      exact (hf a).through hb hv
  refuses := by
    intro depth errors b t h
    obtain ⟨a, u, hr, hb⟩ := bind_eq_ok.1 h
    rw [← List.nil_append [ending]] at hr
    obtain ⟨us, hus, hu⟩ := hp.leaves.eq_of_stop (Reply.stop?_of_ok hr)
    obtain rfl := List.suffix_nil.1 hus
    rw [hu] at hb
    exact (hf a).refuses hb

theorem AnswersThrough.nested {p : Parser α} (hp : AnswersThrough ending more p) :
    AnswersThrough ending more (nested p) where
  leaves := hp.leaves.nested
  through := by
    intro ts us depth errors a t h hu
    obtain ⟨u, hr, rfl⟩ := nested_eq_ok h
    rw [nested_apply]
    rcases hp.through hr hu with hq | hq
    · left
      rw [hq]
      rfl
    · right
      rw [hq]
      rfl

theorem ReadsThrough.nested {p : Parser α} (hp : ReadsThrough ending more p) :
    ReadsThrough ending more (nested p) where
  toAnswersThrough := hp.toAnswersThrough.nested
  refuses := by
    intro depth errors a t h
    obtain ⟨u, hr, -⟩ := nested_eq_ok h
    exact hp.refuses hr

/-- A token that is the end or does not pass the test is not accepted. -/
theorem accept_of_eq_false {s : ParserState} {token : Token} {rest : List Token}
    {test : TokenKind → Bool} (h : s.rest = token :: rest)
    (ht : (!token.isEnd && test token.kind) = false) : accept test s = .ok none s := by
  unfold accept
  rw [h]
  exact if_neg (by rw [ht]; exact Bool.false_ne_true)

/-- The text begins with a token, which is no else. -/
def StartsElsewise (more : List Token) : Prop :=
  ∃ token rest, more = token :: rest ∧ (!token.isEnd && token.kind == .elseWord) = false

/-- An else is accepted short of the end, or in neither text. -/
theorem answersThrough_else (he : ending.isEnd = true) (hmore : StartsElsewise more) :
    AnswersThrough ending more (accept (· == .elseWord)) where
  leaves := (proceeds_accept _).leavesEnd he
  through := by
    intro ts us depth errors found t h hu
    right
    rcases accept_eq_ok h with ⟨rfl, rfl, token, rest, hr, htest⟩ |
      ⟨token, rfl, hr, hend, htest, hdepth, herrors⟩
    · obtain rfl : ts = us := List.append_cancel_right hu
      cases ts with
      | nil =>
          obtain ⟨first, others, rfl, hfirst⟩ := hmore
          exact accept_of_eq_false rfl hfirst
      | cons first ts =>
          obtain ⟨rfl, -⟩ := List.cons.inj hr
          exact accept_of_eq_false rfl htest
    · obtain rfl : ts = token :: us := List.append_cancel_right (hr.trans (by rw [hu]; rfl))
      obtain ⟨rest, depth', errors'⟩ := t
      obtain rfl : depth' = depth := hdepth
      obtain rfl : errors' = errors := herrors
      exact accept_of_test rfl hend htest

theorem readsThrough_expect (he : ending.isEnd = true) {kind : TokenKind}
    {expectation : Expectation} : ReadsThrough ending more (expect kind expectation) where
  leaves := (proceeds_expect kind expectation).leavesEnd he
  through := by
    intro ts us depth errors token t h hu
    right
    obtain ⟨hr, hend, rfl, hdepth, herrors⟩ := expect_eq_ok h
    obtain rfl : ts = token :: us := List.append_cancel_right (hr.trans (by rw [hu]; rfl))
    obtain ⟨rest, depth', errors'⟩ := t
    obtain rfl : depth' = depth := hdepth
    obtain rfl : errors' = errors := herrors
    refine expect_of_kind rfl rfl fun hkind => ?_
    rw [Token.isEnd_iff.2 hkind] at hend
    cases hend
  refuses := by
    intro depth errors token t h
    obtain ⟨hr, hend, -⟩ := expect_eq_ok h
    rw [← (List.cons.inj hr).1, he] at hend
    cases hend

theorem readsThrough_outOfFuel (he : ending.isEnd = true) :
    ReadsThrough ending more (outOfFuel : Parser α) where
  leaves := proceeds_outOfFuel.leavesEnd he
  through h := by cases h
  refuses h := by cases h

/-! ### Statements and declarations -/

section Statements

variable (he : ending.isEnd = true)

include he

/-- **What ends with a token of a given kind is read through**, if what stands in front of that token
agrees short of the end. -/
theorem AgreeShort.readsThrough_closed {p : Parser α} (hp : AgreeShort ending more α p p)
    (kind : TokenKind) (expectation : Expectation) (f : α → β) :
    ReadsThrough ending more (p >>= fun a => expect kind expectation >>= fun _ => Pure.pure (f a)) :=
  hp.bind_readsThrough fun _ => (readsThrough_expect he).bind fun _ => answersThrough_pure _

theorem readsThrough_variableDeclaration (fuel : Nat) :
    ReadsThrough ending more (variableDeclaration fuel) :=
  ((congruence_agreeShort more he).expect _ _).bind_readsThrough fun _ =>
    ((congruence_agreeShort more he).initializer fuel fuel).readsThrough_closed he _ _ _

theorem readsThrough_expressionStatement (fuel : Nat) :
    ReadsThrough ending more (expressionStatement fuel) :=
  ((congruence_agreeShort more he).expression fuel fuel).readsThrough_closed he _ _ _

theorem readsThrough_printStatement (fuel : Nat) :
    ReadsThrough ending more (printStatement fuel) :=
  ((congruence_agreeShort more he).expression fuel fuel).readsThrough_closed he _ _ _

theorem readsThrough_returnStatement (fuel : Nat) (keyword : Token) :
    ReadsThrough ending more (returnStatement fuel keyword) :=
  ((congruence_agreeShort more he).noteTopLevel keyword).bind_readsThrough fun _ =>
    ((congruence_agreeShort more he).optionalExpression fuel fuel _).readsThrough_closed he _ _ _

theorem readsThrough_block (fuel : Nat) : ReadsThrough ending more (block fuel) := by
  cases fuel with
  | zero => exact readsThrough_outOfFuel he
  | succ fuel =>
      rw [block]
      exact ((congruence_agreeShort more he).blockItems fuel fuel).readsThrough_closed he _ _ _

theorem readsThrough_function (fuel : Nat) : ReadsThrough ending more (function fuel) := by
  cases fuel with
  | zero => exact readsThrough_outOfFuel he
  | succ fuel =>
      have h := congruence_agreeShort more he
      rw [function]
      refine (h.expect _ _).bind_readsThrough fun name =>
        (h.expect _ _).bind_readsThrough fun _ => ?_
      refine (h.parameterList fuel fuel).bind_readsThrough fun names => ?_
      refine (h.expect _ _).bind_readsThrough fun _ => (h.expect _ _).bind_readsThrough fun _ => ?_
      exact (readsThrough_block he fuel).nested.bind fun body => answersThrough_pure _

end Statements

mutual

/-- **A statement that is read is read through**, in front of anything but an else. -/
theorem readsThrough_statement (he : ending.isEnd = true) (hmore : StartsElsewise more) :
    ∀ fuel, ReadsThrough ending more (statement fuel)
  | 0 => readsThrough_outOfFuel he
  | fuel + 1 => by
      have h := congruence_agreeShort more he
      rw [statement]
      refine h.peek.bind_readsThrough fun token => ?_
      split
      · exact h.advance.bind_readsThrough fun _ => readsThrough_forStatement he hmore fuel
      · exact h.advance.bind_readsThrough fun _ => readsThrough_ifStatement he hmore fuel
      · exact h.advance.bind_readsThrough fun _ => readsThrough_printStatement he fuel
      · exact h.advance.bind_readsThrough fun _ => readsThrough_returnStatement he fuel token
      · exact h.advance.bind_readsThrough fun _ => readsThrough_whileStatement he hmore fuel
      · exact h.advance.bind_readsThrough fun _ =>
          (readsThrough_block he fuel).bind fun _ => answersThrough_pure _
      · exact readsThrough_expressionStatement he fuel

theorem readsThrough_forStatement (he : ending.isEnd = true) (hmore : StartsElsewise more) :
    ∀ fuel, ReadsThrough ending more (forStatement fuel)
  | 0 => readsThrough_outOfFuel he
  | fuel + 1 => by
      have h := congruence_agreeShort more he
      rw [forStatement]
      refine (h.expect _ _).bind_readsThrough fun _ =>
        (h.forInitializer fuel fuel).bind_readsThrough fun _ => ?_
      refine (h.optionalExpression fuel fuel _).bind_readsThrough fun _ =>
        (h.expect _ _).bind_readsThrough fun _ => ?_
      refine (h.optionalExpression fuel fuel _).bind_readsThrough fun _ =>
        (h.expect _ _).bind_readsThrough fun _ => ?_
      exact (readsThrough_statement he hmore fuel).bind fun _ => answersThrough_pure _

theorem readsThrough_ifStatement (he : ending.isEnd = true) (hmore : StartsElsewise more) :
    ∀ fuel, ReadsThrough ending more (ifStatement fuel)
  | 0 => readsThrough_outOfFuel he
  | fuel + 1 => by
      have h := congruence_agreeShort more he
      rw [ifStatement]
      refine (h.expect _ _).bind_readsThrough fun _ =>
        (h.expression fuel fuel).bind_readsThrough fun _ => ?_
      refine (h.expect _ _).bind_readsThrough fun _ =>
        (readsThrough_statement he hmore fuel).bind fun _ => (answersThrough_else he hmore).bind
          fun found => ?_
      cases found with
      | none => exact answersThrough_pure _
      | some word =>
          have helse := (readsThrough_statement he hmore fuel).toAnswersThrough
          exact helse.bind fun _ => answersThrough_pure _

theorem readsThrough_whileStatement (he : ending.isEnd = true) (hmore : StartsElsewise more) :
    ∀ fuel, ReadsThrough ending more (whileStatement fuel)
  | 0 => readsThrough_outOfFuel he
  | fuel + 1 => by
      have h := congruence_agreeShort more he
      rw [whileStatement]
      refine (h.expect _ _).bind_readsThrough fun _ =>
        (h.expression fuel fuel).bind_readsThrough fun _ => ?_
      exact (h.expect _ _).bind_readsThrough fun _ =>
        (readsThrough_statement he hmore fuel).bind fun _ => answersThrough_pure _

end

/-- **A declaration that is read is read through**, in front of anything but an else. -/
theorem readsThrough_bareDeclaration (he : ending.isEnd = true) (hmore : StartsElsewise more)
    (fuel : Nat) : ReadsThrough ending more (bareDeclaration fuel) := by
  cases fuel with
  | zero => exact readsThrough_outOfFuel he
  | succ fuel =>
      have h := congruence_agreeShort more he
      rw [bareDeclaration]
      refine (h.accept _).bind_readsThrough fun found => ?_
      cases found with
      | some word => exact readsThrough_function he fuel
      | none =>
          refine (h.accept _).bind_readsThrough fun found => ?_
          cases found with
          | some word => exact readsThrough_variableDeclaration he fuel
          | none => exact readsThrough_statement he hmore fuel

/-! ### Declaration by declaration -/

theorem eq_ok_of_recovering_some {p : Parser α} {s t : ParserState} {a : α}
    (h : recovering p s = .ok (some a) t) : p s = .ok a t := by
  unfold recovering at h
  cases hr : p s with
  | ok b u =>
      rw [hr] at h
      obtain ⟨hb, rfl⟩ := Reply.ok.inj h
      rw [Option.some.inj hb]
  | gaveUp u =>
      rw [hr] at h
      obtain ⟨_, _, _, h⟩ := bind_eq_ok.1 h
      exact nomatch (pure_eq_ok.1 h).1
  | fault why u =>
      rw [hr] at h
      cases h
  | outOfFuel =>
      rw [hr] at h
      cases h

/-- **A declaration that is read is read the same** in front of anything but an else. -/
theorem concludes_declaration_append (he : ending.isEnd = true) (hmore : StartsElsewise more)
    {ts : List Token} {depth : Nat} {errors : List SyntaxError} {s : Stmt} {t : ParserState}
    (h : Concludes declaration ⟨ts ++ [ending], depth, errors⟩ (.ok (some s) t)) :
    ∃ us, us <:+ ts ∧ t = ⟨us ++ [ending], t.depth, t.errors⟩ ∧
      Concludes declaration ⟨ts ++ more, depth, errors⟩
        (.ok (some s) ⟨us ++ more, t.depth, t.errors⟩) := by
  obtain ⟨r, hr⟩ := Rule.declaration.exists_concludes ⟨ts ++ more, depth, errors⟩
  obtain ⟨least, hleast⟩ := h.enough
  obtain ⟨least', hleast'⟩ := hr.enough
  have hread := hleast (least + least' + 1) (by omega)
  have hmoreRead := hleast' (least + least' + 1) (by omega)
  rw [declaration] at hread hmoreRead
  have hbare := eq_ok_of_recovering_some hread
  have hthrough := readsThrough_bareDeclaration he hmore (least + least')
  obtain ⟨us, hus, hu⟩ := hthrough.leaves.eq_of_stop (Reply.stop?_of_ok hbare)
  refine ⟨us, hus, hu, ?_⟩
  unfold recovering at hmoreRead
  rcases hthrough.through hbare (congrArg ParserState.rest hu) with hq | hq
  · rw [hq] at hmoreRead
    exact absurd hmoreRead.symm hr.answered
  · rw [hq] at hmoreRead
    obtain rfl := hmoreRead
    exact hr

/-- **A program whose declarations are all read is read the same in front of more**, and the parser
goes on from where it ended. -/
theorem concludes_program_append (he : ending.isEnd = true) (hmore : StartsElsewise more)
    {fuel : Nat} : ∀ {ts depth errors ss t}, (∀ token ∈ ts, token.isEnd = false) →
      program fuel ⟨ts ++ [ending], depth, errors⟩ = .ok ss t →
        (∀ step ∈ outlineFrom fuel ⟨ts ++ [ending], depth, errors⟩, step.declaration ≠ none) →
          ∀ {others u}, Concludes program ⟨more, t.depth, t.errors⟩ (.ok others u) →
            Concludes program ⟨ts ++ more, depth, errors⟩ (.ok (ss ++ others) u) := by
  induction fuel with
  | zero =>
      intro ts depth errors ss t _ h
      cases h
  | succ fuel ih =>
      intro ts depth errors ss t hts h hsteps others u hothers
      cases ts with
      | nil =>
          rw [Loop.program.stopped rfl he] at h
          obtain ⟨rfl, rfl⟩ := Reply.ok.inj h
          exact hothers
      | cons token ts =>
          have hend : token.isEnd = false := hts token List.mem_cons_self
          rw [Loop.program.more rfl hend] at h
          obtain ⟨found, v, hdeclaration, h⟩ := bind_eq_ok.1 h
          obtain ⟨ss', w, hprogram, h⟩ := bind_eq_ok.1 h
          obtain ⟨rfl, rfl⟩ := pure_eq_ok.1 h
          rw [outlineFrom_cons rfl hend hdeclaration] at hsteps
          obtain ⟨s, rfl⟩ := Option.ne_none_iff_exists'.1 (hsteps _ List.mem_cons_self)
          obtain ⟨us, hus, hv, hmoreRead⟩ := concludes_declaration_append he hmore
            (Rule.declaration.concludes_of_eq fuel hdeclaration nofun)
          rw [hv] at hprogram hsteps
          have hrest : ∀ token ∈ us, token.isEnd = false := fun token hmem =>
            hts token (hus.mem hmem)
          -- The declarations behind this one were read too, from a shorter row of tokens.
          have hlater := ih hrest hprogram
            (fun step hstep => hsteps step (List.mem_cons_of_mem _ hstep)) hothers
          rw [List.append_assoc]
          exact Loop.program.concludes_next rfl hend hmoreRead hlater

/-- What a rule concludes with behind earlier errors. -/
theorem Concludes.after {p : Nat → Parser α} (hp : Rule p) {s : ParserState} {r : Reply α}
    (h : Concludes p s r) (earlier : List SyntaxError) :
    Concludes p (s.after earlier) (r.after earlier) := by
  obtain ⟨r', hr'⟩ := hp.exists_concludes (s.after earlier)
  obtain ⟨fuel, hf⟩ := h.exists_fuel
  obtain ⟨fuel', hf'⟩ := hr'.exists_fuel
  rcases hp.unaffected fuel fuel' s earlier with hout | hout | heq
  · exact absurd (hf.symm.trans hout) h.answered
  · exact absurd (hf'.symm.trans hout) hr'.answered
  · rw [hf, hf'] at heq
    rwa [← heq]

end Parser

/-! ### Two texts in a row -/

theorem parse_eq_of_concludes {tokens : List Token} {r : Reply (List Stmt)}
    (h : Parser.Concludes Parser.program (ParserState.start tokens) r) : parse tokens = r :=
  (h.only (parserFuel tokens)).resolve_left (parse_ne_outOfFuel tokens)

theorem concludes_parse (tokens : List Token) :
    Parser.Concludes Parser.program (ParserState.start tokens) (parse tokens) :=
  Parser.Rule.program.concludes_of_eq (parserFuel tokens) rfl (parse_ne_outOfFuel tokens)

/-- Text to be parsed, without its end: no token ends the source text, and no numeral or string
lacks its value. -/
def Endable (tokens : List Token) : Prop :=
  ∀ token ∈ tokens, token.isEnd = false ∧ ¬ token.LacksValue

theorem Endable.legible {tokens : List Token} (h : Endable tokens) {ending : Token}
    (he : ending.isEnd = true) : Legible (tokens ++ [ending]) where
  ends := ⟨ending, List.mem_append_right _ List.mem_cons_self, he⟩
  valued := by
    intro token hmem
    rcases List.mem_append.1 hmem with hmem | hmem
    · exact (h token hmem).2
    · obtain rfl := List.mem_singleton.1 hmem
      rintro ⟨hkind | hkind, -⟩ <;> rw [Token.isEnd_iff.1 he] at hkind <;> cases hkind

theorem Endable.drop_endPlace {tokens : List Token} (h : Endable tokens) {ending : Token}
    (he : ending.isEnd = true) :
    (tokens ++ [ending]).drop (endPlace (tokens ++ [ending])) = [ending] := by
  have hnone : ∀ token ∈ tokens, ¬ token.isEnd = true := fun token hmem => by
    simp [(h token hmem).1]
  have hplace : endPlace (tokens ++ [ending]) = tokens.length := by
    unfold endPlace
    rw [List.findIdx_append, List.findIdx_eq_length.2 (by simpa using hnone)]
    simp [he]
  rw [hplace, List.drop_left]

/-- Such a text is parsed up to its end. -/
theorem Endable.parse_eq_ok {tokens : List Token} (h : Endable tokens) {ending : Token}
    (he : ending.isEnd = true) :
    ∃ ss errors, parse (tokens ++ [ending]) = .ok ss ⟨[ending], 0, errors⟩ := by
  obtain ⟨ss, errors, hparse⟩ := parse_eq_ok_endPlace (h.legible he)
  rw [h.drop_endPlace he] at hparse
  exact ⟨ss, errors, hparse⟩

/-- **Parsing two texts in a row.**  If every declaration at the top of the first text is read, be
it that errors are recorded or taken over within it, and the second text does not begin with an
else, then the two in a row are parsed to the statements of the first and then those of the second,
and the errors of the first are recorded and then those of the second. -/
theorem parse_append {first second : List Token} {ending ending' : Token} (hfirst : Endable first)
    (hsecond : Endable second) (he : ending.isEnd = true) (he' : ending'.isEnd = true)
    (hread : ∀ step ∈ outline (first ++ [ending]), step.declaration ≠ none)
    (helse : ∀ token ∈ second.head?, token.kind ≠ .elseWord) :
    ∃ ss errors ss' errors', parse (first ++ [ending]) = .ok ss ⟨[ending], 0, errors⟩ ∧
      parse (second ++ [ending']) = .ok ss' ⟨[ending'], 0, errors'⟩ ∧
      parse (first ++ second ++ [ending']) = .ok (ss ++ ss') ⟨[ending'], 0, errors ++ errors'⟩ := by
  obtain ⟨ss, errors, hparse⟩ := hfirst.parse_eq_ok he
  obtain ⟨ss', errors', hparse'⟩ := hsecond.parse_eq_ok he'
  refine ⟨ss, errors, ss', errors', hparse, hparse', parse_eq_of_concludes ?_⟩
  have hmore : Parser.StartsElsewise (second ++ [ending']) := by
    cases second with
    | nil => exact ⟨ending', [], rfl, by simp [he']⟩
    | cons token rest => exact ⟨token, rest ++ [ending'], rfl, by simp [helse token rfl]⟩
  -- The second text is parsed in the same way behind the errors of the first.
  have hafter := (concludes_parse (second ++ [ending'])).after .program errors
  rw [hparse'] at hafter
  have hothers : Parser.Concludes Parser.program ⟨second ++ [ending'], 0, errors⟩
      (.ok ss' ⟨[ending'], 0, errors ++ errors'⟩) := by
    simpa [ParserState.after, ParserState.start, Reply.after] using hafter
  have hconcludes := Parser.concludes_program_append he hmore
    (fun token hmem => (hfirst token hmem).1) hparse hread hothers
  rwa [← List.append_assoc] at hconcludes

/-- The tokens of a function with a broken declaration in its body, and of an if statement. -/
def mendedBody : List Token :=
  [⟨.funWord, "fun", none, 1⟩, ⟨.identifier, "f", none, 1⟩, ⟨.leftParen, "(", none, 1⟩,
    ⟨.rightParen, ")", none, 1⟩, ⟨.leftBrace, "\x7b", none, 1⟩, ⟨.minus, "-", none, 2⟩,
    ⟨.semicolon, ";", none, 2⟩, ⟨.rightBrace, "\x7d", none, 3⟩, ⟨.ifWord, "if", none, 4⟩,
    ⟨.leftParen, "(", none, 4⟩, ⟨.identifier, "f", none, 4⟩, ⟨.rightParen, ")", none, 4⟩,
    ⟨.identifier, "f", none, 4⟩, ⟨.semicolon, ";", none, 4⟩]

/-- Behind them a text that cannot be read records its own errors. -/
theorem parse_append_mendedBody :
    ∃ ss errors ss' errors', parse (mendedBody ++ [Token.endOfSource 4]) =
        .ok ss ⟨[Token.endOfSource 4], 0, errors⟩ ∧
      parse [⟨.rightBrace, "\x7d", none, 5⟩, Token.endOfSource 5] =
        .ok ss' ⟨[Token.endOfSource 5], 0, errors'⟩ ∧
      parse (mendedBody ++ [⟨.rightBrace, "\x7d", none, 5⟩, Token.endOfSource 5]) =
        .ok (ss ++ ss') ⟨[Token.endOfSource 5], 0, errors ++ errors'⟩ := by
  have hfirst : Endable mendedBody := by
    simp [Endable, mendedBody, Token.isEnd, Token.LacksValue]
  have hsecond : Endable [⟨.rightBrace, "\x7d", none, 5⟩] := by
    simp [Endable, Token.isEnd, Token.LacksValue]
  have hread :
      (outline (mendedBody ++ [Token.endOfSource 4])).all (·.declaration.isSome) = true := by
    decide +kernel
  have hend : ∀ line, (Token.endOfSource line).isEnd = true := fun _ => rfl
  have happend := parse_append hfirst hsecond (hend 4) (hend 5) (fun step hstep hnone => by
    have hsome := List.all_eq_true.1 hread step hstep
    rw [hnone] at hsome
    cases hsome) (by simp)
  exact happend

end LoxLang
