/-
**Numbers read back from their texts.**

A decimal reads as a double by its value alone: a zero more at the end of its digits and a place more in
its exponent change nothing.  A double reads back from its shortest decimal, and the text of the decimal,
be it written with an exponent or without, says the same value.  So a finite number that a numeral of a
program may denote reads back from its dump.

* `LoxLang.Magnitude.ofRatio?_congr` — quotients are rounded by their value;
* `LoxLang.Magnitude.toMagnitude?_shortest` — the shortest decimal reads back;
* `LoxLang.Decimal.ofText`, `LoxLang.Decimal.Laid` — the decimal that a text says, and such texts;
* `LoxLang.DoubleLayout.Says`, `LoxLang.DoubleLayout.says_decimal` — how a decimal is laid out;
* `LoxLang.Magnitude.ofText_dumped` — a finite double reads back from its text;
* `LoxLang.Number.readsBack_of_written` — **numbers of programs read back from their texts**.
-/

import Mathlib.Data.List.TakeWhile
import LoxLang.Number.Basic
import LoxLang.Proofs.Number.Nearest
import LoxLang.Token.Lexeme

set_option relaxedAutoImplicit false
set_option autoImplicit false

namespace LoxLang

/-! ### Rounding by value -/

theorem divHalfEven_mul_right (num den : Nat) {k : Nat} (hk : 0 < k) :
    divHalfEven (num * k) (den * k) = divHalfEven num den := by
  have hleft : 2 * (num % den * k) < den * k ↔ 2 * (num % den) < den := by
    rw [← Nat.mul_assoc]
    exact Nat.mul_lt_mul_right hk
  have hright : den * k < 2 * (num % den * k) ↔ den < 2 * (num % den) := by
    rw [← Nat.mul_assoc]
    exact Nat.mul_lt_mul_right hk
  unfold divHalfEven
  dsimp only
  rw [Nat.mul_div_mul_right _ _ hk, Nat.mul_mod_mul_right]
  simp only [hleft, hright]

namespace Magnitude

theorem lastPlace_mul_right (num den : Nat) {k : Nat} (hk : 0 < k) :
    lastPlace (num * k) (den * k) = lastPlace num den := by
  unfold lastPlace
  rw [Nat.mul_div_mul_right _ _ hk]

/-- A larger numerator and denominator of the same quotient. -/
theorem ofRatio?_mul_right (num den : Nat) {k : Nat} (hk : 0 < k) :
    ofRatio? (num * k) (den * k) = ofRatio? num den := by
  unfold ofRatio?
  simp only [lastPlace_mul_right num den hk, Nat.mul_right_comm den k,
    divHalfEven_mul_right _ _ hk]

/-- **Equal quotients are rounded alike.** -/
theorem ofRatio?_congr {num den num' den' : Nat} (hden : 0 < den) (hden' : 0 < den')
    (h : num * den' = num' * den) : ofRatio? num den = ofRatio? num' den' := by
  rw [← ofRatio?_mul_right num den hden', h, Nat.mul_comm den den',
    ofRatio?_mul_right num' den' hden]

/-- A count of units is its own nearest magnitude. -/
theorem ofRatio?_units (m : Magnitude) : ofRatio? m.units 1 = some m := by
  have hnearest := isNearest_divHalfEven Nat.one_pos m.units
  obtain ⟨hlimit, significand, exponent, hs, hunits⟩ := m.isMagnitude
  have hclose := hnearest.nearest m.units ⟨significand, exponent, hs, hunits⟩
  have hsame : divHalfEven m.units (1 * Nat.pow 2 (lastPlace m.units 1)) *
      Nat.pow 2 (lastPlace m.units 1) = m.units := by
    simp only [Nat.pow_eq]
    unfold distance at hclose
    omega
  unfold ofRatio?
  dsimp only
  rw [dif_pos (by rw [hsame]; exact hlimit)]
  congr 1
  cases m
  congr 1

end Magnitude

/-! ### Decimals by value -/

namespace Decimal

/-- **A decimal reads by its value**: zeros at the end of the digits count as places of the exponent. -/
theorem toMagnitude?_shift (digits k : Nat) (exponent : Int) :
    toMagnitude? ⟨digits * 10 ^ k, exponent⟩ = toMagnitude? ⟨digits, exponent + k⟩ := by
  unfold toMagnitude?
  simp only [Nat.pow_eq]
  refine Magnitude.ofRatio?_congr (Nat.pow_pos (by decide)) (Nat.pow_pos (by decide)) ?_
  have hplaces : k + exponent.toNat + (-(exponent + k)).toNat =
      (exponent + k).toNat + (-exponent).toNat := by omega
  -- The number of units in one is too large to be written out.
  generalize unitsPerOne = unit
  calc digits * 10 ^ k * unit * 10 ^ exponent.toNat * 10 ^ (-(exponent + k)).toNat
      = digits * unit * 10 ^ (k + exponent.toNat + (-(exponent + k)).toNat) := by
        rw [Nat.pow_add, Nat.pow_add]
        ac_rfl
    _ = digits * unit * 10 ^ (exponent + k).toNat * 10 ^ (-exponent).toNat := by
        rw [hplaces, Nat.pow_add]
        ac_rfl

end Decimal

namespace Magnitude

/-- A unit is a decimal fraction with as many places as it has binary places. -/
theorem ofRatio?_decimalPlaces (m : Magnitude) (places : Nat) :
    ofRatio? (m.units * Nat.pow 5 places * Nat.pow 2 places *
      Nat.pow 10 (-(places : Int)).toNat) (Nat.pow 10 (- -(places : Int)).toNat) = some m := by
  rw [← ofRatio?_units m, Int.neg_neg, Int.toNat_natCast, Int.toNat_neg_natCast]
  simp only [Nat.pow_eq]
  refine ofRatio?_congr (Nat.pow_pos (by decide)) Nat.one_pos ?_
  rw [Nat.pow_zero, Nat.mul_one, Nat.mul_one, Nat.mul_assoc, ← Nat.mul_pow]

theorem toMagnitude?_exact (m : Magnitude) : m.exact.toMagnitude? = some m := by
  unfold exact Decimal.toMagnitude? unitsPerOne
  dsimp only
  generalize unitPlaces = places
  exact ofRatio?_decimalPlaces m places

/-- **The shortest decimal reads back.** -/
theorem toMagnitude?_shortest (m : Magnitude) : m.shortest.toMagnitude? = some m := by
  unfold shortest
  dsimp only
  cases hf : (List.range enoughDigits).findSome? fun (more : Nat) =>
      m.neighbour? (m.leadingExponent - more) with
  | none => exact toMagnitude?_exact m
  | some decimal =>
      obtain ⟨more, -, hmore⟩ := List.exists_of_findSome?_eq_some hf
      exact neighbour?_readsBack hmore

theorem toMagnitude?_zero {decimal : Decimal} (h : decimal.digits = 0) :
    decimal.toMagnitude? = some zero := by
  rw [← ofRatio?_units zero]
  unfold Decimal.toMagnitude?
  refine ofRatio?_congr (Nat.pow_pos (by decide)) Nat.one_pos ?_
  rw [h, Nat.zero_mul, Nat.zero_mul]
  exact (Nat.zero_mul _).symm

/-- The digits of a magnitude that is not zero are not zero. -/
theorem digits_pos {m : Magnitude} (hm : m.units ≠ 0) {decimal : Decimal}
    (h : decimal.toMagnitude? = some m) : 0 < decimal.digits := by
  refine Nat.pos_of_ne_zero fun hzero => ?_
  rw [toMagnitude?_zero hzero] at h
  cases h
  exact hm rfl

end Magnitude

/-! ### Digits -/

namespace Numeral

theorem isDigit_eq (c : Char) : isDigit c = c.isDigit := by
  unfold isDigit Char.isDigit
  rfl

theorem toNat_bounds_of_isDigit {c : Char} (h : isDigit c = true) : 48 ≤ c.toNat ∧ c.toNat ≤ 57 := by
  rw [isDigit_eq] at h
  simpa [Char.isDigit, UInt32.le_iff_toNat_le] using h

theorem digitValue_lt {c : Char} (h : isDigit c = true) : digitValue c < 10 := by
  have hc := toNat_bounds_of_isDigit h
  have hzero : '0'.toNat = 48 := rfl
  unfold digitValue
  omega

theorem value_cons (c : Char) (digits : List Char) :
    value (c :: digits) = digitValue c * 10 ^ digits.length + value digits := by
  have happend := value_append [c] digits
  rw [Nat.pow_eq] at happend
  refine happend.trans ?_
  unfold value
  rw [List.foldl_cons, List.foldl_nil, Nat.zero_mul, Nat.zero_add]

/-- The numeral of a number is made of digits, and denotes it. -/
theorem isDigit_of_mem_repr {n : Nat} {c : Char} (h : c ∈ n.repr.toList) : isDigit c = true := by
  rw [Nat.toList_repr] at h
  rw [isDigit_eq]
  exact Nat.isDigit_of_mem_toDigits (by decide) (by decide) h

theorem value_repr (n : Nat) : value n.repr.toList = n := by
  have hfold : value n.repr.toList = Nat.ofDigitChars 10 n.repr.toList 0 := by
    rw [Nat.ofDigitChars_eq_foldl]
    unfold value digitValue
    simp only [Nat.mul_comm]
  rw [hfold, Nat.toList_repr, Nat.ofDigitChars_ten_toDigits]

theorem value_replicate_zero (n : Nat) : value (List.replicate n '0') = 0 := by
  induction n with
  | zero => rfl
  | succ n ih =>
      have hcons : List.replicate (n + 1) '0' = ['0'] ++ List.replicate n '0' := rfl
      have hzero : value ['0'] = 0 := rfl
      rw [hcons, value_append, ih, hzero, Nat.zero_mul]

theorem value_zeros_append (n : Nat) (digits : List Char) :
    value (List.replicate n '0' ++ digits) = value digits := by
  rw [value_append, value_replicate_zero, Nat.zero_mul, Nat.zero_add]

theorem value_append_zeros (digits : List Char) (n : Nat) :
    value (digits ++ List.replicate n '0') = value digits * 10 ^ n := by
  rw [value_append, value_replicate_zero, List.length_replicate, Nat.add_zero, Nat.pow_eq]

end Numeral

theorem isDigit_of_mem_replicate {n : Nat} {c : Char} (h : c ∈ List.replicate n '0') :
    isDigit c = true := by
  rw [(List.mem_replicate.1 h).2]
  rfl

/-- Zeros are dropped at the end only. -/
theorem dropTrailingZeros_append (digits : List Char) :
    ∃ n, digits = dropTrailingZeros digits ++ List.replicate n '0' := by
  have hzeros : ∀ c ∈ digits.reverse.takeWhile (· == '0'), c = '0' := by
    intro c hc
    have hpass : (c == '0') = true := List.mem_takeWhile_imp (p := (· == '0')) hc
    exact eq_of_beq hpass
  have hsplit := List.takeWhile_append_dropWhile (p := (· == '0')) (l := digits.reverse)
  rw [List.eq_replicate_of_mem hzeros] at hsplit
  refine ⟨(digits.reverse.takeWhile (· == '0')).length, ?_⟩
  have hreverse := congrArg List.reverse hsplit
  rw [List.reverse_append, List.reverse_reverse, List.reverse_replicate] at hreverse
  exact hreverse.symm

/-! ### Texts of decimals -/

/-- The exponent behind its letter, with its sign. -/
def Numeral.exponent : List Char → Int
  | 'e' :: '-' :: digits => -(Numeral.value digits : Int)
  | 'e' :: _ :: digits => Numeral.value digits
  | _ => 0

/-- The decimal that a text says, by digits, a point and an exponent. -/
def Decimal.ofText (text : List Char) : Decimal :=
  let mantissa := text.takeWhile (· != 'e')
  let fraction := (mantissa.dropWhile (· != '.')).drop 1
  ⟨Numeral.value (mantissa.takeWhile (· != '.') ++ fraction),
    Numeral.exponent (text.dropWhile (· != 'e')) - fraction.length⟩

/-- An exponent, with its letter and its sign. -/
def IsExponent (text : List Char) : Prop :=
  ∃ sign digits, text = 'e' :: sign :: digits ∧ (sign = '+' ∨ sign = '-') ∧
    ∀ c ∈ digits, isDigit c = true

/-- The text is digits with a point or an exponent or both, and says the decimal. -/
inductive Decimal.Laid : List Char → Decimal → Prop where
  | pointed (whole fraction : List Char) {tail : List Char} (hne : whole ≠ [])
      (hw : ∀ c ∈ whole, isDigit c = true) (hf : ∀ c ∈ fraction, isDigit c = true)
      (ht : tail = [] ∨ IsExponent tail) :
      Laid (whole ++ '.' :: (fraction ++ tail))
        ⟨Numeral.value (whole ++ fraction), Numeral.exponent tail - fraction.length⟩
  | scaled {whole tail : List Char} (hne : whole ≠ []) (hw : ∀ c ∈ whole, isDigit c = true)
      (ht : IsExponent tail) :
      Laid (whole ++ tail) ⟨Numeral.value whole, Numeral.exponent tail⟩

namespace Decimal

variable {text : List Char} {decimal : Decimal}

theorem bne_of_isDigit {c other : Char} (hc : isDigit c = true) (ho : isDigit other = false) :
    (c != other) = true := by
  refine bne_iff_ne.2 ?_
  rintro rfl
  rw [hc] at ho
  cases ho

/-- What stands in front of an exponent or of the end. -/
theorem spanning_mantissa {mantissa tail : List Char} (hm : ∀ c ∈ mantissa, c ≠ 'e')
    (ht : tail = [] ∨ IsExponent tail) :
    (mantissa ++ tail).takeWhile (· != 'e') = mantissa ∧
      (mantissa ++ tail).dropWhile (· != 'e') = tail := by
  have hpass : ∀ c ∈ mantissa, (c != 'e') = true := fun c hc => bne_iff_ne.2 (hm c hc)
  rw [List.takeWhile_append_of_pos hpass, List.dropWhile_append_of_pos hpass]
  rcases ht with rfl | ⟨sign, digits, rfl, -, -⟩
  · exact ⟨List.append_nil _, rfl⟩
  · exact ⟨List.append_nil _, rfl⟩

/-- **Such a text is read as the decimal that it says.** -/
theorem Laid.ofText_eq (h : Laid text decimal) : ofText text = decimal := by
  have hpoint : isDigit '.' = false := by decide
  have hletter : isDigit 'e' = false := by decide
  cases h with
  | @pointed whole fraction tail hne hw hf ht =>
      -- Neither a digit nor the point is the letter of an exponent.
      have hm : ∀ c ∈ whole ++ '.' :: fraction, c ≠ 'e' := by
        intro c hc
        rcases List.mem_append.1 hc with hc | hc
        · exact bne_iff_ne.1 (bne_of_isDigit (hw c hc) hletter)
        · rcases List.mem_cons.1 hc with rfl | hc
          · decide
          · exact bne_iff_ne.1 (bne_of_isDigit (hf c hc) hletter)
      have hpass : ∀ c ∈ whole, (c != '.') = true := fun c hc => bne_of_isDigit (hw c hc) hpoint
      obtain ⟨htake, hdrop⟩ := spanning_mantissa hm ht
      rw [List.append_assoc, List.cons_append] at htake hdrop
      unfold ofText
      rw [htake, hdrop]
      dsimp only
      rw [List.takeWhile_append_of_pos hpass, List.dropWhile_append_of_pos hpass]
      simp
  | scaled hne hw ht =>
      have hm : ∀ c ∈ _, c ≠ 'e' := fun c hc => bne_iff_ne.1 (bne_of_isDigit (hw c hc) hletter)
      have hpass : ∀ c ∈ _, (c != '.') = true := fun c hc => bne_of_isDigit (hw c hc) hpoint
      obtain ⟨htake, hdrop⟩ := spanning_mantissa hm (.inr ht)
      unfold ofText
      rw [htake, hdrop]
      dsimp only
      rw [List.takeWhile_eq_self_iff.2 hpass, List.dropWhile_eq_nil_iff.2 hpass]
      simp

/-- A character of the text of a number. -/
def IsNumberChar (c : Char) : Prop := isDigit c = true ∨ c = '.' ∨ c = 'e' ∨ c = '+' ∨ c = '-'

theorem isNumberChar_of_isExponent {tail : List Char} (ht : IsExponent tail) :
    ∀ c ∈ tail, IsNumberChar c := by
  obtain ⟨sign, digits, rfl, hs, hd⟩ := ht
  intro c hc
  rcases List.mem_cons.1 hc with rfl | hc
  · exact .inr (.inr (.inl rfl))
  · rcases List.mem_cons.1 hc with rfl | hc
    · exact .inr (.inr (.inr hs))
    · exact .inl (hd c hc)

/-- Such a text begins with a digit, and has a character that is none. -/
theorem Laid.shape (h : Laid text decimal) :
    (∃ first others, text = first :: others ∧ isDigit first = true) ∧
      (∀ c ∈ text, IsNumberChar c) ∧ ∃ c ∈ text, isDigit c = false := by
  cases h with
  | @pointed whole fraction tail hne hw hf ht =>
      obtain ⟨first, others, rfl⟩ := List.exists_cons_of_ne_nil hne
      refine ⟨⟨first, _, rfl, hw first List.mem_cons_self⟩, fun c hc => ?_,
        '.', List.mem_append_right _ List.mem_cons_self, by decide⟩
      rcases List.mem_append.1 hc with hc | hc
      · exact .inl (hw c hc)
      · rcases List.mem_cons.1 hc with rfl | hc
        · exact .inr (.inl rfl)
        · rcases List.mem_append.1 hc with hc | hc
          · exact .inl (hf c hc)
          · rcases ht with rfl | ht
            · cases hc
            · exact isNumberChar_of_isExponent ht c hc
  | @scaled whole tail hne hw ht =>
      obtain ⟨first, others, rfl⟩ := List.exists_cons_of_ne_nil hne
      refine ⟨⟨first, _, rfl, hw first List.mem_cons_self⟩, fun c hc => ?_, 'e', ?_, by decide⟩
      · rcases List.mem_append.1 hc with hc | hc
        · exact .inl (hw c hc)
        · exact isNumberChar_of_isExponent ht c hc
      · obtain ⟨sign, digits, rfl, -, -⟩ := ht
        exact List.mem_append_right _ List.mem_cons_self

end Decimal

/-! ### How decimals are laid out -/

namespace DoubleLayout

open Decimal (Laid)

theorem exponent_toList (leading : Int) :
    IsExponent (dumped.exponent leading).toList ∧
      Numeral.exponent (dumped.exponent leading).toList = leading := by
  have hdigits : ∀ c ∈ List.replicate (2 - leading.natAbs.repr.length) '0' ++
      leading.natAbs.repr.toList, isDigit c = true := by
    intro c hc
    rcases List.mem_append.1 hc with hc | hc
    · exact isDigit_of_mem_replicate hc
    · exact Numeral.isDigit_of_mem_repr hc
  have htext : (dumped.exponent leading).toList =
      'e' :: (if leading < 0 then '-' else '+') ::
        (List.replicate (2 - leading.natAbs.repr.length) '0' ++ leading.natAbs.repr.toList) := by
    unfold exponent
    dsimp only
    split <;> simp [dumped]
  rw [htext]
  refine ⟨⟨_, _, rfl, ?_, hdigits⟩, ?_⟩
  · split
    · exact .inr rfl
    · exact .inl rfl
  · split
    · rw [Numeral.exponent, Numeral.value_zeros_append, Numeral.value_repr]
      omega
    · rw [Numeral.exponent, Numeral.value_zeros_append, Numeral.value_repr]
      · omega
      · decide

/-- The text says a decimal that reads as the given one. -/
def Says (text : List Char) (decimal : Decimal) : Prop :=
  ∃ found, Laid text found ∧ found.toMagnitude? = decimal.toMagnitude?

/-- Zeros stand between the point and the digits. -/
theorem says_small {digits : List Char} (hd : ∀ c ∈ digits, isDigit c = true) (zeros : Nat) :
    Says ('0' :: '.' :: (List.replicate zeros '0' ++ digits))
      ⟨Numeral.value digits, -((zeros + digits.length : Nat) : Int)⟩ := by
  have hfraction : ∀ c ∈ List.replicate zeros '0' ++ digits, isDigit c = true := fun c hc =>
    (List.mem_append.1 hc).elim isDigit_of_mem_replicate (hd c)
  have hlaid := Laid.pointed ['0'] _ (List.cons_ne_nil _ _) (List.forall_mem_singleton.2 rfl)
    hfraction (.inl rfl)
  rw [List.append_nil] at hlaid
  refine ⟨_, hlaid, ?_⟩
  congr 2
  · exact (Numeral.value_zeros_append 1 _).trans (Numeral.value_zeros_append _ _)
  · rw [List.length_append, List.length_replicate]
    simp only [Numeral.exponent]
    omega

/-- The digits end in front of the point, and zeros follow them. -/
theorem says_whole {digits : List Char} (hd : ∀ c ∈ digits, isDigit c = true) (zeros : Nat)
    (hne : digits ++ List.replicate zeros '0' ≠ []) :
    Says (digits ++ List.replicate zeros '0' ++ ['.', '0']) ⟨Numeral.value digits, zeros⟩ := by
  have hwhole : ∀ c ∈ digits ++ List.replicate zeros '0', isDigit c = true := fun c hc =>
    (List.mem_append.1 hc).elim (hd c) isDigit_of_mem_replicate
  have hlaid := Laid.pointed _ ['0'] hne hwhole (List.forall_mem_singleton.2 rfl) (.inl rfl)
  have hvalue : Numeral.value (digits ++ List.replicate zeros '0' ++ ['0']) =
      Numeral.value digits * 10 ^ (zeros + 1) := by
    rw [List.append_assoc, ← Numeral.value_append_zeros, List.replicate_succ']
  refine ⟨_, hlaid, ?_⟩
  rw [hvalue, Decimal.toMagnitude?_shift]
  congr 2
  simp only [Numeral.exponent, List.length_singleton]
  omega

/-- The point stands within the digits. -/
theorem says_pointed {digits : List Char} (hd : ∀ c ∈ digits, isDigit c = true) {places : Nat}
    (hpos : 0 < places) (hlt : places < digits.length) :
    Says (digits.take places ++ '.' :: digits.drop places)
      ⟨Numeral.value digits, places - digits.length⟩ := by
  have hne : digits.take places ≠ [] := by
    intro hnil
    have hlength := congrArg List.length hnil
    rw [List.length_take, List.length_nil] at hlength
    omega
  have hlaid := Laid.pointed _ (digits.drop places) hne (fun c hc => hd c (List.mem_of_mem_take hc))
    (fun c hc => hd c (List.mem_of_mem_drop hc)) (.inl rfl)
  rw [List.append_nil, List.take_append_drop] at hlaid
  refine ⟨_, hlaid, ?_⟩
  congr 2
  rw [List.length_drop]
  simp only [Numeral.exponent]
  omega

/-- Digits of which the first stands at `10 ^ leading` say a decimal of the same value. -/
theorem says_positional {digits : List Char} (hd : ∀ c ∈ digits, isDigit c = true) (leading : Int) :
    Says (dumped.positional digits leading).toList
      ⟨Numeral.value digits, leading + 1 - digits.length⟩ := by
  unfold positional
  dsimp only
  -- The point stands in front of the digits, behind zeros that follow them, or among them.
  split
  · next hneg =>
      have hsays := says_small hd (-leading - 1).toNat
      have hplaces : -(((-leading - 1).toNat + digits.length : Nat) : Int) =
          leading + 1 - digits.length := by omega
      rw [hplaces] at hsays
      rwa [String.toList_ofList]
  · next hpos =>
      obtain ⟨n, rfl⟩ : ∃ n : Nat, leading = n := ⟨leading.toNat, by omega⟩
      rw [Int.toNat_natCast]
      split
      · next hdrop =>
          have hle : digits.length ≤ n + 1 := List.drop_eq_nil_iff.1 hdrop
          have hne : digits ++ List.replicate (n + 1 - digits.length) '0' ≠ [] := by
            intro hnil
            have hlength := congrArg List.length hnil
            rw [List.length_append, List.length_replicate, List.length_nil] at hlength
            omega
          have hsays := says_whole hd (n + 1 - digits.length) hne
          have hplaces : ((n + 1 - digits.length : Nat) : Int) = n + 1 - digits.length := by omega
          rw [hplaces] at hsays
          rw [List.take_of_length_le hle, String.toList_append, String.toList_ofList]
          exact hsays
      · next hdrop =>
          have hlt : n + 1 < digits.length := by
            refine Nat.lt_of_not_le fun hle => ?_
            rw [List.drop_eq_nil_iff.2 hle] at hdrop
            exact hdrop rfl
          have hfilled : n + 1 - (digits.take (n + 1)).length = 0 := by
            rw [List.length_take]
            omega
          rw [hfilled, List.replicate_zero, List.append_nil, String.toList_ofList]
          exact says_pointed hd (Nat.succ_pos n) hlt

theorem says_scientific {digits : List Char} (hne : digits ≠ [])
    (hd : ∀ c ∈ digits, isDigit c = true) (leading : Int) :
    Says (dumped.scientific digits leading).toList
      ⟨Numeral.value digits, leading + 1 - digits.length⟩ := by
  obtain ⟨hexponent, hleading⟩ := exponent_toList leading
  unfold scientific
  dsimp only
  rw [String.toList_append, String.toList_ofList]
  split
  · next first second more =>
      have hlaid := Laid.pointed [first] (second :: more)
        (List.cons_ne_nil _ _) (List.forall_mem_singleton.2 (hd first List.mem_cons_self))
        (fun c hc => hd c (List.mem_cons_of_mem _ hc)) (.inr hexponent)
      refine ⟨_, hlaid, ?_⟩
      rw [hleading]
      congr 2
      simp only [List.length_cons]
      omega
  · next hshort =>
      have hlaid := Laid.scaled hne hd hexponent
      refine ⟨_, hlaid, ?_⟩
      rw [hleading]
      -- There is one digit only.
      match digits, hne, hshort with
      | [first], _, _ =>
          congr 2
          simp only [List.length_singleton]
          omega
      | first :: second :: more, _, hshort => exact absurd rfl (hshort first second more)

/-- **A decimal is laid out as a text that says its value.** -/
theorem says_decimal {decimal : Decimal} (h : 0 < decimal.digits) :
    Says (dumped.decimal decimal).toList decimal := by
  obtain ⟨n, hn⟩ := dropTrailingZeros_append decimal.digits.repr.toList
  have hall : ∀ c ∈ decimal.digits.repr.toList, isDigit c = true := fun c hc =>
    Numeral.isDigit_of_mem_repr hc
  have hvalue : Numeral.value (dropTrailingZeros decimal.digits.repr.toList) * 10 ^ n =
      decimal.digits := by
    rw [← Numeral.value_append_zeros, ← hn, Numeral.value_repr]
  have hlength := congrArg List.length hn
  rw [List.length_append, List.length_replicate] at hlength
  unfold DoubleLayout.decimal
  dsimp only
  rw [hlength]
  generalize dropTrailingZeros decimal.digits.repr.toList = digits at hn hvalue hlength
  have hd : ∀ c ∈ digits, isDigit c = true := fun c hc =>
    hall c (by rw [hn]; exact List.mem_append_left _ hc)
  have hne : digits ≠ [] := by
    rintro rfl
    have hzero : Numeral.value [] = 0 := rfl
    rw [hzero, Nat.zero_mul] at hvalue
    omega
  -- The zeros that were dropped are places of the exponent.
  have hsame : Decimal.toMagnitude? ⟨Numeral.value digits,
      decimal.exponent + ((digits.length + n : Nat) : Int) - 1 + 1 - digits.length⟩ =
        decimal.toMagnitude? := by
    have hplaces : decimal.exponent + ((digits.length + n : Nat) : Int) - 1 + 1 - digits.length =
        decimal.exponent + n := by omega
    rw [hplaces, ← Decimal.toMagnitude?_shift, hvalue]
  split
  · obtain ⟨found, hlaid, hm⟩ := says_positional hd
      (decimal.exponent + ((digits.length + n : Nat) : Int) - 1)
    exact ⟨found, hlaid, hm.trans hsame⟩
  · obtain ⟨found, hlaid, hm⟩ := says_scientific hne hd
      (decimal.exponent + ((digits.length + n : Nat) : Int) - 1)
    exact ⟨found, hlaid, hm.trans hsame⟩

end DoubleLayout

/-! ### Doubles -/

namespace Magnitude

theorem laid_dumped (m : Magnitude) :
    ∃ decimal, Decimal.Laid (DoubleLayout.dumped.magnitude m).toList decimal ∧
      decimal.toMagnitude? = some m := by
  unfold DoubleLayout.magnitude
  split
  · next hzero =>
      have hlaid := Decimal.Laid.pointed ['0'] ['0'] (List.cons_ne_nil _ _)
        (List.forall_mem_singleton.2 rfl) (List.forall_mem_singleton.2 rfl) (.inl rfl)
      refine ⟨_, hlaid, (toMagnitude?_zero rfl).trans (congrArg some ?_)⟩
      cases m
      cases hzero
      rfl
  · next hne =>
      have hshortest := toMagnitude?_shortest m
      have hdigits := digits_pos hne hshortest
      obtain ⟨found, hlaid, hsame⟩ := DoubleLayout.says_decimal hdigits
      exact ⟨found, hlaid, hsame.trans hshortest⟩

/-- **A finite double reads back from its text.** -/
theorem ofText_dumped (m : Magnitude) :
    (Decimal.ofText (DoubleLayout.dumped.magnitude m).toList).toMagnitude? = some m := by
  obtain ⟨decimal, hlaid, hm⟩ := laid_dumped m
  rw [hlaid.ofText_eq, hm]

end Magnitude

/-! ### Numbers of programs -/

namespace Number

/-- A numeral of a program may denote the number: it is not negative, and an integer is within the
limit of digits. -/
inductive Written : Number → Prop where
  | int {n : Nat} (h : n < Numeral.limitBound) : Written (.int n)
  | infinite : Written (.double (.infinite false))
  | finite (m : Magnitude) : Written (.double (.finite false m))

/-- The number that a text says: an integer if it has only digits, and otherwise a double. -/
def ofText (text : List Char) : Number :=
  if text.all isDigit then .int (Numeral.value text)
  else
    match (Decimal.ofText text).toMagnitude? with
    | some m => .double (.finite false m)
    | none => .double (.infinite false)

/-- The text of an infinite double. -/
def infiniteText : String := "inf"

/-- The text is the dump of the number, begins with a digit and reads back as the number. -/
structure ReadsBack (n : Number) (text : String) : Prop where
  dump : n.dump? = some text
  first : ∃ first others, text.toList = first :: others ∧ isDigit first = true
  chars : ∀ c ∈ text.toList, Decimal.IsNumberChar c
  ofText : ofText text.toList = n

theorem readsBack_int {n : Nat} (h : n < Numeral.limitBound) :
    (Number.int n).ReadsBack n.repr := by
  have hdigits : ∀ c ∈ n.repr.toList, isDigit c = true := fun c hc => Numeral.isDigit_of_mem_repr hc
  obtain ⟨first, others, hcons⟩ : ∃ first others, n.repr.toList = first :: others := by
    refine List.exists_cons_of_ne_nil ?_
    rw [Nat.toList_repr]
    exact Nat.toDigits_ne_nil
  refine ⟨?_, ⟨first, others, hcons, hdigits first (by rw [hcons]; exact List.mem_cons_self)⟩,
    fun c hc => .inl (hdigits c hc), ?_⟩
  · unfold dump? Numeral.limited?
    exact if_pos h
  · unfold Number.ofText
    rw [if_pos (List.all_eq_true.2 hdigits), Numeral.value_repr]

theorem readsBack_finite (m : Magnitude) :
    (Number.double (.finite false m)).ReadsBack (DoubleLayout.dumped.magnitude m) := by
  obtain ⟨decimal, hlaid, -⟩ := m.laid_dumped
  obtain ⟨hfirst, hchars, c, hc, hdigit⟩ := hlaid.shape
  refine ⟨?_, hfirst, hchars, ?_⟩
  · unfold dump? Binary64.render
    exact congrArg some (String.empty_append ..)
  · have hnot : ¬ (DoubleLayout.dumped.magnitude m).toList.all isDigit = true := by
      intro hall
      rw [List.all_eq_true.1 hall c hc] at hdigit
      cases hdigit
    unfold Number.ofText
    rw [if_neg hnot, m.ofText_dumped]

/-- **Numbers of programs read back from their texts**, all but the infinite one. -/
theorem readsBack_of_written {n : Number} (h : n.Written) :
    (∃ text, n.ReadsBack text) ∨ n = .double (.infinite false) ∧ n.dump? = some infiniteText := by
  cases h with
  | int h => exact .inl ⟨_, readsBack_int h⟩
  | infinite => exact .inr ⟨rfl, rfl⟩
  | finite m => exact .inl ⟨_, readsBack_finite m⟩

end Number

end LoxLang
