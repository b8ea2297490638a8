import HexArena.Script.Token
import HexArena.Text.Fold

/-!
# Control words

Seven words shape a script: two around definitions, three around branches and
two around loops.  They can never be defined.

Main results:

- Definition {lit}`Keyword.ofName?`: the control word a name spells, in any
  letter case.
- Definition {lit}`Token.keyword?`: the control word a token is.
-/

namespace HexArena.Script

/-- A control word. -/
inductive Keyword where
  /-- Opens a definition. -/
  | colon
  /-- Closes a definition. -/
  | semicolon
  /-- Opens a branch. -/
  | branch
  /-- Divides a branch. -/
  | otherwise
  /-- Closes a branch. -/
  | join
  /-- Opens a loop. -/
  | loop
  /-- Closes a loop. -/
  | again
deriving DecidableEq, Repr

namespace Keyword

/-- The spelling of a control word. -/
def name : Keyword → String
  | colon => ":"
  | semicolon => ";"
  | branch => "if"
  | otherwise => "else"
  | join => "then"
  | loop => "begin"
  | again => "until"

/-- All control words. -/
def all : List Keyword :=
  [colon, semicolon, branch, otherwise, join, loop, again]

/-- The control word a name spells. -/
def ofName? (s : String) : Option Keyword :=
  all.find? (·.name == Text.fold s)

/-- A control word is spelled by its name. -/
@[simp] theorem ofName?_name (k : Keyword) : ofName? k.name = some k := by
  cases k <;> decide

end Keyword

/-- The control word a token is. -/
def Token.keyword? : Token → Option Keyword
  | .word name => Keyword.ofName? name
  | _ => none

/-- The token is a given word in any letter case. -/
def Token.isWord (name : String) : Token → Bool
  | .word w => Text.same w name
  | _ => false

end HexArena.Script
