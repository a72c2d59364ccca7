/-
**Canonical numerals, in one go and in chunks.**

A number has one numeral without leading zeros: its digits are those of Mathlib's `Nat.digits`, read from
behind.  The text of an integer is that numeral, after a minus sign if the integer is negative.  Written in
chunks it is the same text, since filling up a chunk makes its digits as many as its place demands: so
digits behind a canonical numeral of a number that is not zero make a canonical numeral again, and the
chunks are appended one after the other.

* `LoxLang.Numeral.IsCanonical`, `LoxLang.Numeral.IsCanonical.unique` — the digits of a number;
* `LoxLang.Numeral.IsCanonical.append` — digits behind a canonical numeral;
* `LoxLang.Numeral.exists_chunked` — **the chunks of a number are its digits**;
* `LoxLang.Numeral.Canonical`, `LoxLang.Numeral.Canonical.unique` — the numeral of an integer;
* `LoxLang.Numeral.text?_canonical`, `LoxLang.Numeral.chunked?_eq_text?` — **both ways of writing it**;
* `LoxLang.Number.print?_isSome` — every number can be written.
-/

import LoxLang.Proofs.Number.ReadBack
import LoxLang.Proofs.Token.MaximalMunch

set_option relaxedAutoImplicit false
set_option autoImplicit false

namespace LoxLang

namespace Numeral

/-! ### Digits of a number -/

/-- The digits are the canonical numeral of a number: they denote it, and no zero leads them unless it is
the only digit. -/
structure IsCanonical (digits : List Char) (n : Nat) : Prop where
  digit : ∀ c ∈ digits, isDigit c = true
  nonempty : digits ≠ []
  leading : ∀ rest, digits = '0' :: rest → rest = []
  decimal : decimal digits = n

theorem digitChar_digitValue {c : Char} (h : isDigit c = true) : (digitValue c).digitChar = c := by
  have hc := toNat_bounds_of_isDigit h
  have hzero : '0'.toNat = 48 := rfl
  refine Char.toNat_inj.1 ?_
  rw [Nat.toNat_digitChar_of_lt_ten (digitValue_lt h)]
  unfold digitValue
  omega

theorem digitValue_eq_zero {c : Char} (h : isDigit c = true) : digitValue c = 0 ↔ c = '0' := by
  rw [← Nat.digitChar_eq_zero, digitChar_digitValue h]

theorem decimal_cons (c : Char) (digits : List Char) :
    LoxLang.decimal (c :: digits) =
      digitValue c * 10 ^ digits.length + LoxLang.decimal digits := by
  rw [← value_eq_decimal, ← value_eq_decimal, value_cons]

namespace IsCanonical

variable {digits other high low : List Char} {n m : Nat}

theorem eq_zero (h : IsCanonical digits 0) : digits = ['0'] := by
  obtain ⟨c, rest, rfl⟩ := List.exists_cons_of_ne_nil h.nonempty
  have hvalue := h.decimal
  rw [decimal_cons] at hvalue
  have hpow : 0 < 10 ^ rest.length := Nat.pow_pos (by decide)
  have hfirst : digitValue c = 0 := by
    refine Nat.eq_zero_of_not_pos fun hpos => ?_
    have hmul := Nat.mul_pos hpos hpow
    omega
  have hc := (digitValue_eq_zero (h.digit c List.mem_cons_self)).1 hfirst
  rw [hc, h.leading rest (by rw [hc])]

/-- From behind, the digits are those of the number. -/
theorem reverse_eq (h : IsCanonical digits n) (hn : 0 < n) :
    digits.reverse = (Nat.digits 10 n).map Nat.digitChar := by
  obtain ⟨c, rest, rfl⟩ := List.exists_cons_of_ne_nil h.nonempty
  have hfirst : digitValue c ≠ 0 := by
    intro hzero
    have hc := (digitValue_eq_zero (h.digit c List.mem_cons_self)).1 hzero
    have hvalue := h.decimal
    rw [decimal_cons, hzero, h.leading rest (by rw [hc])] at hvalue
    simp [LoxLang.decimal] at hvalue
    omega
  have hdigits : Nat.digits 10 n = (c :: rest).reverse.map digitValue := by
    rw [← h.decimal]
    refine Nat.digits_ofDigits 10 (by decide) _ ?_ ?_
    · intro d hd
      obtain ⟨e, he, rfl⟩ := List.mem_map.1 hd
      exact digitValue_lt (h.digit e (List.mem_reverse.1 he))
    · intro _
      simpa using hfirst
  have hsame : ∀ d ∈ (c :: rest).reverse, (Nat.digitChar ∘ digitValue) d = id d := fun d hd =>
    digitChar_digitValue (h.digit d (List.mem_reverse.1 hd))
  rw [hdigits, List.map_map, List.map_congr_left hsame, List.map_id]

/-- **A number has one canonical numeral.** -/
theorem unique (h : IsCanonical digits n) (h' : IsCanonical other n) : digits = other := by
  rcases Nat.eq_zero_or_pos n with rfl | hn
  · rw [h.eq_zero, h'.eq_zero]
  · refine List.reverse_inj.1 ?_
    rw [h.reverse_eq hn, h'.reverse_eq hn]

/-- Digits behind the canonical numeral of a number that is not zero. -/
theorem append (h : IsCanonical high m) (hm : 0 < m) (hlow : ∀ c ∈ low, isDigit c = true) :
    IsCanonical (high ++ low) (m * 10 ^ low.length + LoxLang.decimal low) := by
  obtain ⟨c, rest, rfl⟩ := List.exists_cons_of_ne_nil h.nonempty
  refine ⟨?_, List.cons_ne_nil _ _, ?_, ?_⟩
  · intro d hd
    exact (List.mem_append.1 hd).elim (h.digit d) (hlow d)
  · intro tail htail
    rw [List.cons_append] at htail
    obtain ⟨rfl, -⟩ := List.cons.inj htail
    -- The only canonical numeral that begins with a zero is that of zero.
    have hrest := h.leading rest rfl
    subst hrest
    have hvalue := h.decimal
    simp [LoxLang.decimal, digitValue] at hvalue
    omega
  · rw [← value_eq_decimal, value_append, value_eq_decimal, value_eq_decimal, h.decimal, Nat.pow_eq]

end IsCanonical

/-- No zero leads the digits of a number that is not zero. -/
theorem head?_toDigits {n : Nat} (hn : 0 < n) : (Nat.toDigits 10 n).head? ≠ some '0' := by
  induction n using Nat.strongRecOn with
  | ind n ih =>
      rcases Nat.lt_or_ge n 10 with h | h
      · rw [Nat.toDigits_of_lt_base h, List.head?_cons, ne_eq, Option.some.injEq,
          Nat.digitChar_eq_zero]
        omega
      · have hne : Nat.toDigits 10 (n / 10) ≠ [] := Nat.toDigits_ne_nil
        obtain ⟨c, rest, hcons⟩ := List.exists_cons_of_ne_nil hne
        have hhead := ih (n / 10) (by omega) (by omega)
        rw [Nat.toDigits_of_base_le (by decide) h]
        rw [hcons] at hhead ⊢
        exact hhead

/-- The numeral of a number in one go is canonical. -/
theorem isCanonical_repr (n : Nat) : IsCanonical n.repr.toList n := by
  refine ⟨fun c hc => isDigit_of_mem_repr hc, ?_, ?_, ?_⟩
  · rw [Nat.toList_repr]
    exact Nat.toDigits_ne_nil
  · intro rest hrest
    rw [Nat.toList_repr] at hrest
    rcases Nat.eq_zero_or_pos n with rfl | hn
    · rw [Nat.toDigits_zero] at hrest
      exact (List.cons.inj hrest).2.symm
    · have hhead := head?_toDigits hn
      rw [hrest] at hhead
      exact absurd rfl hhead
  · rw [← value_eq_decimal, value_repr]

/-! ### Chunks -/

theorem chunkBase_le_limitBound : chunkBase ≤ limitBound := by
  have hdigits : chunkDigits ≤ digitLimit := by decide
  unfold chunkBase limitBound
  exact Nat.pow_le_pow_right (by decide) hdigits

theorem limitBound_pos : 0 < limitBound := by
  unfold limitBound
  exact Nat.pow_pos (by decide)

/-- A chunk is written in one go. -/
theorem limited?_of_lt_chunkBase {chunk : Nat} (h : chunk < chunkBase) :
    limited? chunk = some chunk.repr := by
  unfold limited?
  exact if_pos (Nat.lt_of_lt_of_le h chunkBase_le_limitBound)

/-- A chunk is filled up to all its digits, which denote it. -/
theorem padded?_eq_some {chunk : Nat} (h : chunk < chunkBase) :
    ∃ text, padded? chunk = some text ∧ (∀ c ∈ text.toList, isDigit c = true) ∧
      text.toList.length = chunkDigits ∧ LoxLang.decimal text.toList = chunk := by
  have hlength : chunk.repr.toList.length ≤ chunkDigits := by
    rw [Nat.toList_repr]
    exact (Nat.length_toDigits_le_iff (by decide) (by decide)).2 h
  refine ⟨_, by rw [padded?, limited?_of_lt_chunkBase h]; rfl, ?_, ?_, ?_⟩
  · intro c hc
    rw [String.toList_append, String.toList_ofList] at hc
    exact (List.mem_append.1 hc).elim isDigit_of_mem_replicate isDigit_of_mem_repr
  · rw [String.toList_append, String.toList_ofList, List.length_append, List.length_replicate]
    rw [String.length_toList] at hlength ⊢
    omega
  · rw [String.toList_append, String.toList_ofList, ← value_eq_decimal, value_zeros_append,
      value_repr]

/-- **The chunks of a number are its digits**: the highest without leading zeros, the others filled up. -/
theorem exists_chunked {n : Nat} (hn : 0 < n) :
    ∃ head rest texts, (chunks n).reverse = head :: rest ∧ limited? head = some head.repr ∧
      rest.mapM padded? = some texts ∧
      IsCanonical (head.repr.toList ++ (String.join texts).toList) n := by
  induction n using Nat.strongRecOn with
  | ind n ih =>
      obtain ⟨k, rfl⟩ := Nat.exists_eq_succ_of_ne_zero (Nat.ne_of_gt hn)
      have hbase : 0 < chunkBase := Nat.lt_trans Nat.zero_lt_one one_lt_chunkBase
      rw [chunks]
      rcases Nat.eq_zero_or_pos ((k + 1) / chunkBase) with hzero | hpos
      · -- There is one chunk only.
        have hlt : k + 1 < chunkBase := by
          refine Nat.lt_of_not_le fun hle => ?_
          have hdiv := Nat.div_pos hle hbase
          omega
        rw [hzero, Nat.mod_eq_of_lt hlt, chunks]
        refine ⟨k + 1, [], [], rfl, limited?_of_lt_chunkBase hlt, rfl, ?_⟩
        exact (List.append_nil _).symm ▸ isCanonical_repr (k + 1)
      · -- The chunks of the quotient denote it, and the lowest chunk is appended to their digits.
        obtain ⟨head, rest, texts, hchunks, hhead, hrest, hcanonical⟩ :=
          ih ((k + 1) / chunkBase) (chunks_div_lt k) hpos
        obtain ⟨text, htext, hdigits, hlength, hvalue⟩ := padded?_eq_some (Nat.mod_lt (k + 1) hbase)
        refine ⟨head, rest ++ [(k + 1) % chunkBase], texts ++ [text], ?_, hhead, ?_, ?_⟩
        · rw [List.reverse_cons, hchunks, List.cons_append]
        · rw [List.mapM_append, hrest, List.mapM_cons, htext]
          rfl
        · have happend := hcanonical.append hpos hdigits
          rw [hlength, hvalue] at happend
          have hsplit : (k + 1) / chunkBase * 10 ^ chunkDigits + (k + 1) % chunkBase = k + 1 :=
            Nat.div_add_mod' (k + 1) chunkBase
          rw [hsplit, List.append_assoc] at happend
          rw [String.join_append, String.toList_append, String.join_cons, String.join_nil,
            String.append_empty]
          exact happend

/-! ### Numerals of integers -/

/-- The text is the canonical numeral of an integer: that of its magnitude, after a minus sign exactly if
it is negative. -/
def Canonical (text : String) (v : Int) : Prop :=
  ∃ digits, IsCanonical digits v.natAbs ∧ text.toList = (if v < 0 then ['-'] else []) ++ digits

/-- **An integer has one canonical numeral.** -/
theorem Canonical.unique {text other : String} {v : Int} (h : Canonical text v)
    (h' : Canonical other v) : text = other := by
  obtain ⟨digits, hd, htext⟩ := h
  obtain ⟨digits', hd', hother⟩ := h'
  refine String.toList_inj.1 ?_
  rw [htext, hother, hd.unique hd']

/-- The numeral of an integer in one go is canonical. -/
theorem canonical_toString (v : Int) : Canonical (toString v) v := by
  refine ⟨v.natAbs.repr.toList, isCanonical_repr _, ?_⟩
  rw [Int.toString_eq_repr, Int.repr_eq_if]
  split
  · next hnonneg =>
      have hmagnitude : v.toNat = v.natAbs := by omega
      rw [if_neg (by omega), hmagnitude, List.nil_append]
  · next hneg =>
      have hmagnitude : (-v).toNat = v.natAbs := by omega
      rw [if_pos (by omega), hmagnitude, String.toList_append]
      rfl

/-- Written in chunks, an integer that is not zero has its canonical numeral. -/
theorem chunked?_canonical {v : Int} (hv : v ≠ 0) :
    ∃ text, chunked? v = some text ∧ Canonical text v := by
  obtain ⟨head, rest, texts, hchunks, hhead, hrest, hcanonical⟩ :=
    exists_chunked (Int.natAbs_pos.2 hv)
  refine ⟨(if v < 0 then "-" else "") ++ head.repr ++ String.join texts, ?_, _, hcanonical, ?_⟩
  · unfold chunked?
    rw [hchunks]
    dsimp only
    rw [hhead, hrest]
    rfl
  · rw [String.toList_append, String.toList_append, List.append_assoc]
    split
    · rfl
    · rfl

/-- **Every integer is written as its canonical numeral**, however long. -/
theorem text?_canonical (v : Int) : ∃ text, text? v = some text ∧ Canonical text v := by
  unfold text?
  cases hl : limited? v with
  | some text =>
      unfold limited? at hl
      split at hl
      · cases hl
        exact ⟨_, rfl, canonical_toString v⟩
      · cases hl
  | none =>
      refine chunked?_canonical ?_
      rintro rfl
      unfold limited? at hl
      rw [Int.natAbs_zero, if_pos limitBound_pos] at hl
      cases hl

/-- **Both ways of writing an integer give the same text.** -/
theorem chunked?_eq_text? {v : Int} (hv : v ≠ 0) : chunked? v = text? v := by
  obtain ⟨text, htext, hcanonical⟩ := chunked?_canonical hv
  obtain ⟨other, hother, hcanonical'⟩ := text?_canonical v
  rw [htext, hother, hcanonical.unique hcanonical']

end Numeral

/-- **Every number can be written.** -/
theorem Number.print?_isSome (n : Number) : n.print?.isSome = true := by
  cases n with
  | int n =>
      obtain ⟨text, htext, -⟩ := Numeral.text?_canonical n
      rw [print?, htext]
      rfl
  | double x => rfl

end LoxLang
