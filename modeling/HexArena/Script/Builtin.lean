import HexArena.Script.Vocabulary
import HexArena.Script.Word.Arithmetic
import HexArena.Script.Word.Mail
import HexArena.Script.Word.Piece
import HexArena.Script.Word.Sight
import HexArena.Script.Word.Stack

/-!
# What built-in words do

Main results:

- Definition {lit}`Builtin.action`: the action of each built-in word.
- Definition {lit}`Builtin.perform`: the action, and whether the script goes on;
  only the last word of the vocabulary halts it.
-/

namespace HexArena.Script.Builtin

/-- The action of a built-in word. -/
def action (scene : Scene) : Builtin → Action Unit
  | dup => Word.dup scene
  | drop => Word.drop
  | swap => Word.swap scene
  | pull => Word.pull scene
  | rot => Word.rot scene
  | nip => Word.nip scene
  | depth => Word.depth scene
  | clear => Word.clear
  | add => Word.arithmetic scene Word.add
  | subtract => Word.arithmetic scene Word.subtract
  | multiply => Word.arithmetic scene Word.multiply
  | divide => Word.arithmetic scene Word.divide
  | remainder => Word.arithmetic scene Word.remainder
  | negate => Word.unary scene Word.negate
  | absolute => Word.unary scene Word.absolute
  | minimum => Word.arithmetic scene fun left right => .ok (min left right)
  | maximum => Word.arithmetic scene fun left right => .ok (max left right)
  | equal => Word.test scene fun left right => decide (left = right)
  | notEqual => Word.test scene fun left right => decide (left ≠ right)
  | less => Word.compare scene fun left right => decide (left < right)
  | greater => Word.compare scene fun left right => decide (right < left)
  | lessOrEqual => Word.compare scene fun left right => decide (left ≤ right)
  | greaterOrEqual => Word.compare scene fun left right => decide (right ≤ left)
  | conjunction => Word.test scene fun left right => left.truthy && right.truthy
  | disjunction => Word.test scene fun left right => left.truthy || right.truthy
  | negation => Word.negation scene
  | concat => Word.concat scene
  | toNumber => Word.toNumber scene
  | print => Word.print
  | health => Word.ask scene fun piece => piece.health
  | moves => Word.ask scene fun piece => piece.movement
  | range => Word.ask scene fun piece => piece.stats.range
  | attack => Word.ask scene fun piece => piece.stats.attack
  | facing => Word.ask scene fun piece => piece.facing.index
  | turns => Word.ask scene fun piece => piece.turnsTaken
  | hasShot => Word.hasShot scene
  | myId => Word.myId scene
  | move => Word.move scene
  | shoot => Word.shoot scene
  | turn => Word.turn
  | look => Word.look scene
  | identify => Word.identify scene
  | enemies => Word.enemies scene
  | send => Word.send scene
  | receive => Word.receive scene
  | hasMessage => Word.hasMessage scene
  | clearMail => Word.clearMail
  | finish => pure ()

/-- Whether the script goes on after a built-in word. -/
def flow : Builtin → Flow
  | finish => .halt
  | _ => .proceed

/-- Do what a built-in word does. -/
def perform (scene : Scene) (word : Builtin) : Action Flow := do
  word.action scene
  return word.flow

end HexArena.Script.Builtin
