/-
Strict UTF-8.

A text is decoded octet by octet.  Between characters a *lead* octet tells how many continuation
octets it owes and between which bounds the next one lies; the bounds rule out overlong forms,
surrogates and code points past the last one.  The first octet that does not fit ends the decoding
with a fault that names the octets read of the unfinished character.

Main definitions:

* `LoxLang.Text.Utf8.Lead`, `LoxLang.Text.Utf8.lead?` — what a lead octet promises;
* `LoxLang.Text.Utf8.Fault` — why octets are not a text, with the octets at fault;
* `LoxLang.Text.Utf8.decode` — the text of a list of octets.
-/

set_option relaxedAutoImplicit false
set_option autoImplicit false

namespace LoxLang.Text.Utf8

/-- What is left to read of a character: the continuation octets owed, the bounds of the next one,
and the bits so far. -/
structure Lead where
  owed : Nat
  least : Nat
  greatest : Nat
  bits : Nat

/-- What the first octet of a character promises; none for an octet that starts no character. -/
def lead? (octet : Nat) : Option Lead :=
  if octet < 0x80 then some ⟨0, 0x80, 0xbf, octet⟩
  else if octet < 0xc2 then none
  else if octet < 0xe0 then some ⟨1, 0x80, 0xbf, octet - 0xc0⟩
  else if octet = 0xe0 then some ⟨2, 0xa0, 0xbf, 0⟩
  else if octet = 0xed then some ⟨2, 0x80, 0x9f, 0xd⟩
  else if octet < 0xf0 then some ⟨2, 0x80, 0xbf, octet - 0xe0⟩
  else if octet = 0xf0 then some ⟨3, 0x90, 0xbf, 0⟩
  else if octet < 0xf4 then some ⟨3, 0x80, 0xbf, octet - 0xf0⟩
  else if octet = 0xf4 then some ⟨3, 0x80, 0x8f, 4⟩
  else none

/-- Take in a continuation octet, if it lies within the bounds. -/
def Lead.next? (lead : Lead) (octet : Nat) : Option Lead :=
  if lead.least ≤ octet ∧ octet ≤ lead.greatest then
    some ⟨lead.owed - 1, 0x80, 0xbf, lead.bits * 0x40 + (octet - 0x80)⟩
  else
    none

/-- Why octets are not a text. -/
inductive Cause where
  | invalidStart
  | invalidContinuation
  | unexpectedEnd
  deriving DecidableEq, Repr

/-- A fault of a list of octets: the cause, and the first and the last position of the octets at
fault with the octet at the first. -/
structure Fault where
  cause : Cause
  first : Nat
  last : Nat
  octet : Nat
  deriving DecidableEq, Repr

/-- An unfinished character: where it starts, with which octet, and what is left to read of it. -/
structure Pending where
  start : Nat
  octet : Nat
  lead : Lead

/-- Decode octets from a position on, with the character that is being read if there is one. -/
def decodeFrom : Nat → Option Pending → List Nat → Except Fault (List Char)
  | _, none, [] => .ok []
  | position, some pending, [] =>
      .error ⟨.unexpectedEnd, pending.start, position - 1, pending.octet⟩
  | position, none, octet :: rest =>
      match lead? octet with
      | none => .error ⟨.invalidStart, position, position, octet⟩
      | some lead =>
          if lead.owed = 0 then
            (decodeFrom (position + 1) none rest).map (Char.ofNat lead.bits :: ·)
          else
            decodeFrom (position + 1) (some ⟨position, octet, lead⟩) rest
  | position, some pending, octet :: rest =>
      match pending.lead.next? octet with
      | none => .error ⟨.invalidContinuation, pending.start, position - 1, pending.octet⟩
      | some lead =>
          if lead.owed = 0 then
            (decodeFrom (position + 1) none rest).map (Char.ofNat lead.bits :: ·)
          else
            decodeFrom (position + 1) (some ⟨pending.start, pending.octet, lead⟩) rest

/-- The text that the octets encode. -/
def decode (octets : List Nat) : Except Fault String :=
  (decodeFrom 0 none octets).map String.ofList

/-- The wording of a cause. -/
def Cause.message : Cause → String
  | .invalidStart => "invalid start byte"
  | .invalidContinuation => "invalid continuation byte"
  | .unexpectedEnd => "unexpected end of data"

/-- An octet as two hexadecimal digits. -/
def octetText (octet : Nat) : String :=
  let digits := Nat.toDigits 16 octet
  String.ofList (List.replicate (2 - digits.length) '0' ++ digits)

/-- The wording of a fault. -/
def Fault.message (fault : Fault) : String :=
  let octets :=
    if fault.first = fault.last then
      s!"byte 0x{octetText fault.octet} in position {fault.first}"
    else
      s!"bytes in position {fault.first}-{fault.last}"
  s!"'utf-8' codec can't decode {octets}: {fault.cause.message}"

end LoxLang.Text.Utf8
