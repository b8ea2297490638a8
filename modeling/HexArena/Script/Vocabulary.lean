import HexArena.Text.Fold

/-!
# The built-in words

The words every script knows.  Their effects on a machine are defined family by
family; here are their names.

Main results:

- Definition {lit}`Builtin`: the built-in words.
- Definition {lit}`Builtin.ofName?`: the built-in word a name spells, in any
  letter case.
-/

namespace HexArena.Script

/-- A built-in word. -/
inductive Builtin where
  | dup | drop | swap | pull | rot | nip | depth | clear
  | add | subtract | multiply | divide | remainder | negate | absolute | minimum | maximum
  | equal | notEqual | less | greater | lessOrEqual | greaterOrEqual
  | conjunction | disjunction | negation
  | concat | toNumber | print
  | health | moves | range | attack | facing | turns | hasShot | myId
  | move | shoot | turn
  | look | identify | enemies
  | send | receive | hasMessage | clearMail
  | finish
deriving DecidableEq, Repr

namespace Builtin

/-- The spelling of a built-in word. -/
def name : Builtin → String
  | dup => "dup"
  | drop => "drop"
  | swap => "swap"
  | pull => "over"
  | rot => "rot"
  | nip => "nip"
  | depth => "depth"
  | clear => "clear"
  | add => "+"
  | subtract => "-"
  | multiply => "*"
  | divide => "/"
  | remainder => "mod"
  | negate => "negate"
  | absolute => "abs"
  | minimum => "min"
  | maximum => "max"
  | equal => "="
  | notEqual => "<>"
  | less => "<"
  | greater => ">"
  | lessOrEqual => "<="
  | greaterOrEqual => ">="
  | conjunction => "and"
  | disjunction => "or"
  | negation => "not"
  | concat => "concat"
  | toNumber => ">num"
  | print => "."
  | health => "health"
  | moves => "moves"
  | range => "range"
  | attack => "attack"
  | facing => "facing"
  | turns => "turns"
  | hasShot => "hasshot"
  | myId => "myid"
  | move => "move"
  | shoot => "shoot"
  | turn => "turn"
  | look => "look"
  | identify => "identify"
  | enemies => "enemies"
  | send => "send"
  | receive => "receive"
  | hasMessage => "hasmessage"
  | clearMail => "clearmail"
  | finish => "end"

/-- All built-in words. -/
def all : List Builtin :=
  [dup, drop, swap, pull, rot, nip, depth, clear,
    add, subtract, multiply, divide, remainder, negate, absolute, minimum, maximum,
    equal, notEqual, less, greater, lessOrEqual, greaterOrEqual,
    conjunction, disjunction, negation,
    concat, toNumber, print,
    health, moves, range, attack, facing, turns, hasShot, myId,
    move, shoot, turn,
    look, identify, enemies,
    send, receive, hasMessage, clearMail,
    finish]

/-- The built-in word a name spells. -/
def ofName? (s : String) : Option Builtin :=
  all.find? (·.name == Text.fold s)

/-- A built-in word is spelled by its name. -/
@[simp] theorem ofName?_name (b : Builtin) : ofName? b.name = some b := by
  cases b <;> decide

end Builtin

end HexArena.Script
