/-!
# Faults

A word that cannot do its work raises a fault; a script that cannot be loaded or
run ends its turn with an error.

Main results:

- Definition {lit}`WordFault`: what goes wrong inside a word.
- Definition {lit}`Error`: what ends a turn.
- Definitions {lit}`WordFault.message` and {lit}`Error.message`: their wording.
-/

namespace HexArena.Script

/-- What goes wrong inside a word. -/
inductive WordFault where
  /-- The word needs more values than there are. -/
  | stackUnderflow
  /-- The stack holds as many values as its limit allows. -/
  | stackOverflow (limit : Nat)
  /-- The word needs an integer and found a text. -/
  | expectedInteger (found : String)
  | divisionByZero
  /-- A result is no signed 64-bit number. -/
  | arithmeticOverflow
deriving DecidableEq, Repr

/-- Why a text names no word. -/
inductive NameError where
  /-- The name is empty or holds blanks only. -/
  | empty
deriving DecidableEq, Repr

/-- What ends a turn. -/
inductive Error where
  | unknownWord (name : String)
  | literalOutOfRange (raw : String)
  | unterminatedText (line : Nat)
  | unterminatedComment (line : Nat)
  | unterminatedDefinition (name : String)
  | nestedDefinition (name : String)
  | unbalanced (word : String)
  | reservedWord (name : String)
  | invalidName (written : String)
  | definition (cause : NameError)
  | expansionTooDeep (word : String) (limit : Nat)
  | stepLimitExceeded (limit : Nat)
  | wordFailed (word : String) (fault : WordFault)
deriving DecidableEq, Repr

/-- The wording of a fault. -/
def WordFault.message : WordFault → String
  | .stackUnderflow => "stack underflow"
  | .stackOverflow limit => "stack overflow beyond " ++ toString limit ++ " values"
  | .expectedInteger found => "expected an integer, found `\"" ++ found ++ "\"`"
  | .divisionByZero => "division by zero"
  | .arithmeticOverflow => "arithmetic overflow"

/-- The wording of a refused name. -/
def NameError.message : NameError → String
  | .empty => "user word names must not be empty"

/-- The wording of an error. -/
def Error.message : Error → String
  | .unknownWord name => "unknown word `" ++ name ++ "`"
  | .literalOutOfRange raw => "literal `" ++ raw ++ "` is out of range"
  | .unterminatedText line =>
    "unterminated text literal starting on line " ++ toString line
  | .unterminatedComment line => "unterminated comment starting on line " ++ toString line
  | .unterminatedDefinition name =>
    "definition of `" ++ name ++ "` is missing its closing `;`"
  | .nestedDefinition name => "definition nested inside `" ++ name ++ "`"
  | .unbalanced word => "unbalanced control word `" ++ word ++ "`"
  | .reservedWord name => "`" ++ name ++ "` is reserved and cannot be redefined"
  | .invalidName written => "`" ++ written ++ "` is not a valid word name"
  | .definition cause => cause.message
  | .expansionTooDeep word limit =>
    "expansion of `" ++ word ++ "` exceeded the depth limit of " ++ toString limit
  | .stepLimitExceeded limit => "turn exceeded the step limit of " ++ toString limit
  | .wordFailed word fault => "`" ++ word ++ "` failed: " ++ fault.message

end HexArena.Script
