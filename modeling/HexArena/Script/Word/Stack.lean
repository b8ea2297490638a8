import HexArena.Script.Machine

/-!
# Stack words

The words that rearrange the stack.

Main results:

- Definitions {lit}`Word.dup` to {lit}`Word.clear`: one action for each word.
-/

namespace HexArena.Script.Word

/-- Copy the top: {lit}`( a -- a a )`. -/
def dup (scene : Scene) : Action Unit := do
  let top ← peek 0
  push scene top

/-- Drop the top: {lit}`( a -- )`. -/
def drop : Action Unit := do
  let _ ← pop

/-- Swap the two topmost values: {lit}`( a b -- b a )`. -/
def swap (scene : Scene) : Action Unit := do
  let (first, second) ← popPair
  push scene second
  push scene first

/-- Copy the second value: {lit}`( a b -- a b a )`. -/
def pull (scene : Scene) : Action Unit := do
  let below ← peek 1
  push scene below

/-- Bring the third value to the top: {lit}`( a b c -- b c a )`. -/
def rot (scene : Scene) : Action Unit := do
  let _ ← peek 2
  let (second, third) ← popPair
  let first ← pop
  push scene second
  push scene third
  push scene first

/-- Drop the second value: {lit}`( a b -- b )`. -/
def nip (scene : Scene) : Action Unit := do
  let (_, second) ← popPair
  push scene second

/-- The number of values: {lit}`( -- n )`. -/
def depth (scene : Scene) : Action Unit := do
  let m ← get
  if Fits64 m.stack.length then pushInt scene m.stack.length
  else Action.raise .arithmeticOverflow

/-- Drop all values. -/
def clear : Action Unit :=
  modify fun m => { m with stack := [] }

end HexArena.Script.Word
