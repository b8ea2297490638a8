import HexArena.Number

/-!
# Decimal integers

The written form of an integer is an optional sign and one or more ASCII
digits.

Main results:

- Definition {lit}`Text.readDigits?`: the value of a run of digits.
- Definition {lit}`Text.readInt?`: the value of digits after at most one sign.
- Definition {lit}`Text.readInt64?`: the same, for values in the signed 64-bit
  range.
-/

namespace HexArena.Text

/-- The characters are one or more ASCII digits. -/
def isDigits (cs : List Char) : Bool :=
  !cs.isEmpty && cs.all Char.isDigit

/-- The value of one or more ASCII digits. -/
def readDigits? (cs : List Char) : Option Nat :=
  if isDigits cs then some (Nat.ofDigitChars 10 cs 0) else none

/-- The value of an optional sign and one or more ASCII digits. -/
def readInt? : List Char → Option Int
  | '-' :: cs => (readDigits? cs).map fun n => -(n : Int)
  | '+' :: cs => (readDigits? cs).map fun n => (n : Int)
  | cs => (readDigits? cs).map fun n => (n : Int)

/-- The value of a written integer in the signed 64-bit range. -/
def readInt64? (cs : List Char) : Option Int :=
  (readInt? cs).filter fun n => decide (Fits64 n)

end HexArena.Text
