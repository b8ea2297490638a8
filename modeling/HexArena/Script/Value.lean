import HexArena.Script.Error

/-!
# Values

The stack of a script holds integers and texts.  A flag is the integer one or
zero.

Main results:

- Definition {lit}`Value.truthy`: nonzero integers and non-empty texts count as
  true.
- Definitions {lit}`Value.toInt` and {lit}`Value.toText`: a text is no integer,
  but every value has a text form.
-/

namespace HexArena.Script

/-- A value on the stack. -/
inductive Value where
  | int (n : Int)
  | text (s : String)
deriving DecidableEq, Repr

namespace Value

/-- The flag of a truth value. -/
def flag (b : Bool) : Value :=
  .int (if b then 1 else 0)

/-- The value counts as true. -/
def truthy : Value → Bool
  | int n => n != 0
  | text s => s != ""

/-- The integer, or the fault that there is none. -/
def toInt : Value → Except WordFault Int
  | int n => .ok n
  | text s => .error (.expectedInteger s)

/-- The text form of a value. -/
def toText : Value → String
  | int n => toString n
  | text s => s

end Value

end HexArena.Script
