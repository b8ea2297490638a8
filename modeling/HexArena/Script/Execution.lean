import HexArena.Script.Builtin
import HexArena.Script.Structure

/-!
# Running scripts

A running script is a queue of tokens.  A user word is replaced by its body, a
branch that is not taken is dropped from the queue, and a loop puts its body in
front of the queue again as long as its test fails.  Every item taken from the
queue is a step, and a turn has a limited number of them.

Main results:

- Definition {lit}`Limits`: the bounds on the work of a turn.
- Definition {lit}`Execution.step`: what one item of the queue does.
- Definition {lit}`Execution.run`: the steps of a script until it is done.
-/

namespace HexArena.Script

/-- The bounds on the work of one turn. -/
structure Limits where
  /-- The number of steps. -/
  stepLimit : Nat
  /-- The depth to which user words may expand into each other. -/
  expansionDepth : Nat
  /-- The number of values on the stack. -/
  stackLimit : Nat
deriving DecidableEq, Repr

/-- The bounds of a match that sets none. -/
def Limits.default : Limits where
  stepLimit := 10000
  expansionDepth := 64
  stackLimit := 1024

/-- An item of the queue. -/
inductive Pending where
  /-- A token, and how many user words it was expanded from. -/
  | token (token : Token) (depth : Nat)
  /-- The test at the end of a loop, and the body to put back if it fails. -/
  | test (body : List Token) (depth : Nat)
deriving DecidableEq, Repr

/-- Tokens as items of the queue. -/
def Pending.ofTokens (tokens : List Token) (depth : Nat) : List Pending :=
  tokens.map (.token · depth)

/-! ## Taking tokens from the queue -/

/-- The queue behind the end of a branch, or behind its division if
{lit}`stopAtElse`, with {lit}`nesting` branches open inside it. -/
def skipBranch (stopAtElse : Bool) : Nat → List Pending → Option (List Pending)
  | nesting, .token token _ :: rest =>
    match token.keyword? with
    | some .branch => skipBranch stopAtElse (nesting + 1) rest
    | some .join =>
      match nesting with
      | 0 => some rest
      | nesting + 1 => skipBranch stopAtElse nesting rest
    | some .otherwise =>
      if stopAtElse && nesting == 0 then some rest else skipBranch stopAtElse nesting rest
    | _ => skipBranch stopAtElse nesting rest
  | _, _ => none

/-- The body of a loop and the queue behind it, with {lit}`nesting` loops open
inside it. -/
def collectLoop : Nat → List Pending → Option (List Token × List Pending)
  | nesting, .token token _ :: rest =>
    match token.keyword?, nesting with
    | some .again, 0 => some ([], rest)
    | some .again, nesting + 1 =>
      (collectLoop nesting rest).map fun (body, rest) => (token :: body, rest)
    | some .loop, nesting =>
      (collectLoop (nesting + 1) rest).map fun (body, rest) => (token :: body, rest)
    | _, nesting => (collectLoop nesting rest).map fun (body, rest) => (token :: body, rest)
  | _, _ => none

/-- The body of the definition of a name and the queue behind it. -/
def collectBody (name : String) : List Pending → Except Error (List Token × List Pending)
  | .token token _ :: rest =>
    match token.keyword? with
    | some .semicolon => .ok ([], rest)
    | some .colon => .error (.nestedDefinition name)
    | _ => do
      let (body, rest) ← collectBody name rest
      return (token :: body, rest)
  | _ => .error (.unterminatedDefinition name)

/-- The user word a definition binds and the queue behind the definition. -/
def collectDefinition : List Pending → Except Error (UserWord × List Pending)
  | .token token _ :: rest => do
    let name ← definitionName token
    let (body, rest) ← collectBody name rest
    match UserWord.ofName name body with
    | .ok word => return (word, rest)
    | .error cause => throw (.definition cause)
  | _ => .error (.unterminatedDefinition "")

/-- The queue with the body of a loop and its test in front. -/
def scheduleLoop (body : List Token) (depth : Nat) (rest : List Pending) : List Pending :=
  Pending.ofTokens body depth ++ .test body depth :: rest

/-! ## Steps -/

/-- A script that is running. -/
structure Execution where
  dictionary : Dictionary
  pending : List Pending
  machine : Machine
deriving DecidableEq, Repr

/-- How a turn ends. -/
inductive Outcome where
  /-- The queue is empty. -/
  | completed
  /-- The script halted itself. -/
  | ended
  | faulted (error : Error)
deriving DecidableEq, Repr

/-- The outcome is a fault. -/
def Outcome.isFault : Outcome → Bool
  | .faulted _ => true
  | _ => false

/-- What one item of the queue leads to. -/
inductive Step where
  | next (e : Execution)
  | halted (e : Execution)
  | faulted (error : Error) (e : Execution)
  | overflowed (cause : Overflow)
deriving DecidableEq, Repr

namespace Execution

/-- Do an action in the name of a word and go on with its result. -/
def act {α : Type} (e : Execution) (word : String) (action : Action α)
    (next : α → Execution → Step) : Step :=
  match action e.machine with
  | .ok a m => next a { e with machine := m }
  | .error (.fault fault) m => .faulted (.wordFailed word fault) { e with machine := m }
  | .error (.overflow cause) _ => .overflowed cause

/-- Put a literal on the stack. -/
def literal (e : Execution) (scene : Scene) (value : Value) : Step :=
  e.act value.toText (push scene value) fun _ e => .next e

/-- Do what a word that is no control word means. -/
def invoke (e : Execution) (scene : Scene) (limits : Limits) (name : String) (depth : Nat) : Step :=
  match e.dictionary.lookup name with
  | some (.builtin word) =>
    e.act name (word.perform scene) fun flow e =>
      match flow with
      | .proceed => .next e
      | .halt => .halted e
  | some (.user word) =>
    if limits.expansionDepth < depth + 1 then
      .faulted (.expansionTooDeep word.name limits.expansionDepth) e
    else .next { e with pending := Pending.ofTokens word.body (depth + 1) ++ e.pending }
  | none => .faulted (.unknownWord name) e

/-- Go on with a shorter queue, or fault if it was not found. -/
def jump (e : Execution) (opener : Keyword) : Option (List Pending) → Step
  | some rest => .next { e with pending := rest }
  | none => .faulted (.unbalanced opener.name) e

/-- Do what a control word means. -/
def control (e : Execution) (word : Keyword) (name : String) (depth : Nat) : Step :=
  match word with
  | .colon =>
    match collectDefinition e.pending with
    | .error error => .faulted error e
    | .ok (new, rest) =>
      match e.dictionary.define new with
      | .error error d => .faulted error { e with dictionary := d }
      | .ok () d => .next { e with dictionary := d, pending := rest }
  | .branch =>
    e.act name pop fun flag e =>
      if flag.truthy then .next e
      else e.jump .branch (skipBranch true 0 e.pending)
  | .otherwise => e.jump .branch (skipBranch false 0 e.pending)
  | .join => .next e
  | .loop =>
    e.jump .loop
      ((collectLoop 0 e.pending).map fun (body, rest) => scheduleLoop body depth rest)
  | .semicolon | .again => .faulted (.unbalanced name) e

/-- Do what an item that was taken from the queue means. -/
def step (e : Execution) (scene : Scene) (limits : Limits) (item : Pending) : Step :=
  match item with
  | .token (.number n) _ => e.literal scene (.int n)
  | .token (.text s) _ => e.literal scene (.text s)
  | .token (.word name) depth =>
    match Keyword.ofName? name with
    | some word => e.control word name depth
    | none => e.invoke scene limits name depth
  | .test body depth =>
    e.act Keyword.again.name pop fun done e =>
      if done.truthy then .next e
      else .next { e with pending := scheduleLoop body depth e.pending }

/-- Take items from the queue until it is empty, the script halts or faults, or
{lit}`fuel` steps are done. -/
def run (scene : Scene) (limits : Limits) : Nat → Execution → Checked (Outcome × Execution)
  | fuel, e =>
    match e.pending, fuel with
    | [], _ => .ok (.completed, e)
    | _ :: rest, 0 =>
      .ok (.faulted (.stepLimitExceeded limits.stepLimit), { e with pending := rest })
    | item :: rest, fuel + 1 =>
      match step { e with pending := rest } scene limits item with
      | .next e => run scene limits fuel e
      | .halted e => .ok (.ended, e)
      | .faulted error e => .ok (.faulted error, e)
      | .overflowed cause => .error cause

end Execution

end HexArena.Script
