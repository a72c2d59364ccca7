/-
Decimal numerals of integers.

The numeral of an integer is its decimal digits without leading zeros, after a minus sign if it is
negative.  Writing a numeral in one go takes a time that grows with the square of its length, so
there is a limit to the digits that are written so.  A program's output has no limit: a longer
numeral is written in chunks of a thousand digits, the first without leading zeros and the others
filled up with zeros.  Each chunk is written in one go.

Main definitions:

* `LoxLang.Numeral.limited?` — the numeral of an integer within the limit;
* `LoxLang.Numeral.chunks`, `LoxLang.Numeral.chunked?` — the numeral written in chunks;
* `LoxLang.Numeral.text?`, `LoxLang.Numeral.text` — the numeral of any integer;
* `LoxLang.Numeral.value` — the number that a list of digits denotes.

Main results:

* `LoxLang.Numeral.value_append` — the value of two digit lists in a row;
* `LoxLang.Numeral.chunks_div_lt` — a chunk takes something away.
-/

set_option relaxedAutoImplicit false
set_option autoImplicit false

namespace LoxLang.Numeral

/-! ### Numerals in one go -/

/-- The most digits that are converted in one go, when written and when read. -/
def digitLimit : Nat := 4300

/-- The least magnitude with more digits than the limit. -/
def limitBound : Nat := Nat.pow 10 digitLimit

/-- The numeral of an integer, if it has no more digits than the limit. -/
def limited? (n : Int) : Option String :=
  if n.natAbs < limitBound then some (toString n) else none

/-- The beginning of the wordings about the limit. -/
def limitMessage : String :=
  s!"Exceeds the limit ({digitLimit} digits) for integer string conversion"

/-- How the limit can be changed. -/
def limitAdvice : String := "use sys.set_int_max_str_digits() to increase the limit"

/-- The wording for an integer that is too long to be written in one go. -/
def writeLimitMessage : String := s!"{limitMessage}; {limitAdvice}"

/-- The wording for a numeral that is too long to be read. -/
def readLimitMessage (digits : Nat) : String :=
  s!"{limitMessage}: value has {digits} digits; {limitAdvice}"

/-! ### Numerals in chunks -/

/-- The digits of a chunk. -/
def chunkDigits : Nat := 1000

/-- The number of values of a chunk. -/
def chunkBase : Nat := Nat.pow 10 chunkDigits

theorem one_lt_chunkBase : 1 < chunkBase := Nat.one_lt_pow (by decide) (by decide)

theorem chunks_div_lt (n : Nat) : (n + 1) / chunkBase < n + 1 :=
  Nat.div_lt_self (Nat.succ_pos n) one_lt_chunkBase

/-- The chunks of a number, the lowest first; none for zero. -/
def chunks : Nat → List Nat
  | 0 => []
  | n + 1 => (n + 1) % chunkBase :: chunks ((n + 1) / chunkBase)
termination_by n => n
decreasing_by exact chunks_div_lt n

/-- A chunk with all its digits. -/
def padded? (chunk : Nat) : Option String :=
  (limited? chunk).map fun digits =>
    String.ofList (List.replicate (chunkDigits - digits.length) '0') ++ digits

/-- The numeral of an integer, written in chunks; zero has no chunks. -/
def chunked? (n : Int) : Option String :=
  match (chunks n.natAbs).reverse with
  | [] => none
  | head :: rest => do
      let first ← limited? head
      let others ← rest.mapM padded?
      return (if n < 0 then "-" else "") ++ first ++ String.join others

/-- The numeral of an integer: in one go if that is possible, otherwise in chunks. -/
def text? (n : Int) : Option String :=
  match limited? n with
  | some digits => some digits
  | none => chunked? n

/-- The numeral of an integer, of any length. -/
def text (n : Int) : String := (text? n).getD ""

/-! ### Reading digits -/

/-- The value of a decimal digit. -/
def digitValue (c : Char) : Nat := c.toNat - '0'.toNat

/-- The number that a list of decimal digits denotes. -/
def value (digits : List Char) : Nat :=
  digits.foldl (fun high c => high * 10 + digitValue c) 0

theorem foldl_digits (digits : List Char) (start : Nat) :
    digits.foldl (fun high c => high * 10 + digitValue c) start =
      start * Nat.pow 10 digits.length + value digits := by
  unfold value
  simp only [Nat.pow_eq]
  induction digits generalizing start with
  | nil => simp
  | cons c digits ih =>
      simp only [List.foldl_cons, List.length_cons]
      rw [ih, ih (0 * 10 + digitValue c), Nat.pow_succ, Nat.add_mul, Nat.add_mul]
      simp only [Nat.zero_mul, Nat.zero_add]
      rw [Nat.mul_assoc, Nat.mul_comm (10 ^ digits.length) 10, Nat.add_assoc]

/-- The value of two digit lists in a row. -/
theorem value_append (high low : List Char) :
    value (high ++ low) = value high * Nat.pow 10 low.length + value low := by
  unfold value
  rw [List.foldl_append, foldl_digits]
  rfl

end LoxLang.Numeral
