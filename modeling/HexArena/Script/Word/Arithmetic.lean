import HexArena.Script.Machine
import HexArena.Text.Blank
import HexArena.Text.Decimal

/-!
# Arithmetic, comparison, logic and text

The words that compute with values.  Every integer result is a signed 64-bit
number; one that would not be is a fault.

Main results:

- Definition {lit}`Word.arithmetic`: a binary operation on integers.
- Definitions {lit}`Word.divide` and {lit}`Word.remainder`: division rounds
  toward zero, and the remainder has the sign of the dividend.
- Definition {lit}`Word.numberOf`: the integer a value stands for.
-/

namespace HexArena.Script.Word

/-! ## Integers -/

/-- The integer, if it is a signed 64-bit number. -/
def fit (n : Int) : Except WordFault Int :=
  if Fits64 n then .ok n else .error .arithmeticOverflow

/-- Replace two integers by the result of an operation. -/
def arithmetic (scene : Scene) (operation : Int → Int → Except WordFault Int) : Action Unit := do
  let (left, right) ← popIntPair
  let result ← Action.ofResult (operation left right)
  pushInt scene result

/-- The sum. -/
def add (left right : Int) : Except WordFault Int :=
  fit (left + right)

/-- The difference. -/
def subtract (left right : Int) : Except WordFault Int :=
  fit (left - right)

/-- The product. -/
def multiply (left right : Int) : Except WordFault Int :=
  fit (left * right)

/-- The quotient, rounded toward zero. -/
def divide (left right : Int) : Except WordFault Int :=
  if right = 0 then .error .divisionByZero else fit (left.tdiv right)

/-- The remainder of the quotient; it is out of reach whenever the quotient
is. -/
def remainder (left right : Int) : Except WordFault Int :=
  if right = 0 then .error .divisionByZero
  else do
    let _ ← fit (left.tdiv right)
    return left.tmod right

/-- Replace an integer by the result of an operation. -/
def unary (scene : Scene) (operation : Int → Except WordFault Int) : Action Unit := do
  let n ← popInt
  let result ← Action.ofResult (operation n)
  pushInt scene result

/-- The integer with the other sign. -/
def negate (n : Int) : Except WordFault Int :=
  fit (-n)

/-- The magnitude. -/
def absolute (n : Int) : Except WordFault Int :=
  fit n.natAbs

/-! ## Flags -/

/-- Replace two values by a flag. -/
def test (scene : Scene) (holds : Value → Value → Bool) : Action Unit := do
  let (left, right) ← popPair
  pushFlag scene (holds left right)

/-- Replace two integers by a flag. -/
def compare (scene : Scene) (holds : Int → Int → Bool) : Action Unit := do
  let (left, right) ← popIntPair
  pushFlag scene (holds left right)

/-- Replace a value by the opposite flag. -/
def negation (scene : Scene) : Action Unit := do
  let value ← pop
  pushFlag scene (!value.truthy)

/-! ## Texts -/

/-- Join the text forms of two values. -/
def concat (scene : Scene) : Action Unit := do
  let (left, right) ← popPair
  push scene (.text (left.toText ++ right.toText))

/-- The integer a value stands for: a text is read without the blanks around it,
and counts as zero if it is no integer. -/
def numberOf : Value → Int
  | .int n => n
  | .text s => (Text.readInt64? (Text.trimChars s.toList)).getD 0

/-- Replace a value by the integer it stands for. -/
def toNumber (scene : Scene) : Action Unit := do
  let value ← pop
  pushInt scene (numberOf value)

/-- Print a value to the log. -/
def print : Action Unit := do
  let value ← pop
  modify fun m => { m with log := m.log ++ [.printed m.piece.id value.toText] }

end HexArena.Script.Word
