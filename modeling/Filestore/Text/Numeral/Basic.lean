/-!
# `Filestore.Text.Numeral.Basic`: reading decimal numbers

A numeral is one or more ASCII digits after at most one plus sign, of a value below a bound. The
digits are read from the left, and the first fault met is the one reported: a character that is no
digit, or the digit that takes the value to the bound. So a text with both faults is reported for
the one further left.

Leading zeros are allowed, any number of them, and a sign needs a digit after it. White space is a
character that is no digit: whoever allows some around a numeral trims it first. There is no minus
sign, and `-0` is no numeral either.

`Numeral.render` writes a number without sign or leading zeros; reading undoes writing for every
number below the bound (`Filestore.Text.Numeral.Lemmas`).
-/

set_option autoImplicit false

namespace Filestore

namespace Text

namespace Numeral

/-- Why a text is no numeral. -/
inductive Fault where
  /-- There is no character at all. -/
  | empty
  /-- A digit was due and something else came, or nothing after a sign. -/
  | invalidDigit
  /-- The value reaches the bound. -/
  | overflow
  deriving DecidableEq, Repr

/-- The wording of a fault. -/
def Fault.message : Fault → String
  | .empty => "cannot parse integer from empty string"
  | .invalidDigit => "invalid digit found in string"
  | .overflow => "number too large to fit in target type"

/-- Numbers of 64 bits are below this. -/
def bound64 : Nat := 18446744073709551616

/-- Numbers of 8 bits are below this. -/
def bound8 : Nat := 256

/-- The value of an ASCII digit. -/
def digit? (c : Char) : Option Nat :=
  if c.isDigit then some (c.toNat - '0'.toNat) else none

/-- Reads digits after a number already read. -/
def readDigits (bound : Nat) : Nat → List Char → Except Fault Nat
  | value, [] => .ok value
  | value, c :: rest =>
    match digit? c with
    | none => .error .invalidDigit
    | some d =>
      if value * 10 + d < bound then readDigits bound (value * 10 + d) rest
      else .error .overflow

/-- Reads a numeral of a value below the bound. -/
def read (bound : Nat) (text : List Char) : Except Fault Nat :=
  match text with
  | [] => .error .empty
  | ['+'] => .error .invalidDigit
  | '+' :: rest => readDigits bound 0 rest
  | _ => readDigits bound 0 text

/-- Reads a numeral of 64 bits. -/
def read64 (text : List Char) : Except Fault Nat := read bound64 text

/-- The digits of a number, without sign or leading zeros. -/
def render (value : Nat) : List Char := Nat.toDigits 10 value

end Numeral

end Text

end Filestore
