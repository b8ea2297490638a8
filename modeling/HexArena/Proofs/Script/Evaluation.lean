import HexArena.Proofs.Script.Tree
import HexArena.Script.Execution

/-!
# The meaning of syntax trees

A tree is evaluated from its front to its end: a branch takes one of its sides,
a loop repeats its inside until the flag behind it is true, and a user word
evaluates the tree of the body it is bound to when it is reached.  Evaluation
has no queue and counts no steps, so a loop may have no end; then there is no
result.

Main results:

- Definition {lit}`Store`: what evaluation changes.
- Definition {lit}`Evaluation`: a computation on a store that may break off.
- Definition {lit}`Tree.eval`: the evaluation of a tree.
-/

namespace HexArena.Script

/-! ## Evaluations -/

/-- What evaluating a tree changes. -/
structure Store where
  dictionary : Dictionary
  machine : Machine

/-- Why an evaluation breaks off. -/
inductive Break where
  /-- The script halted itself. -/
  | halted
  | faulted (error : Error)
  | overflowed (cause : Overflow)

/-- A computation on a store that may break off, and may have no end. -/
abbrev Evaluation := ExceptT Break (StateT Store Option)

namespace Evaluation

/-- One computation and then another, unless the first breaks off. -/
theorem bind_apply {α β : Type} (first : Evaluation α) (later : α → Evaluation β) (s : Store) :
    (first >>= later) s = (first s).bind fun
      | (.ok a, s) => later a s
      | (.error stop, s) => some (.error stop, s) := by
  simp only [bind, ExceptT.bind, ExceptT.mk, StateT.bind]
  congr 1
  funext ⟨result, s⟩
  cases result <;> rfl

/-- Do an action in the name of a word. -/
def act {α : Type} (word : String) (action : Action α) : Evaluation α := fun s =>
  match action s.machine with
  | .ok a m => some (.ok a, { s with machine := m })
  | .error (.fault fault) m =>
    some (.error (.faulted (.wordFailed word fault)), { s with machine := m })
  | .error (.overflow cause) m => some (.error (.overflowed cause), { s with machine := m })

/-- What a name means at this moment. -/
def meaning (name : String) : Evaluation Meaning := fun s =>
  match s.dictionary.lookup name with
  | some meaning => some (.ok meaning, s)
  | none => some (.error (.faulted (.unknownWord name)), s)

/-- Do what a built-in word does, and break off if it halts the script. -/
def perform (scene : Scene) (name : String) (word : Builtin) : Evaluation Unit := do
  match ← act name (word.perform scene) with
  | .proceed => pure ()
  | .halt => throw .halted

/-- The tree of the body of a user word that is called at a depth. -/
def enter (limits : Limits) (depth : Nat) (word : UserWord) : Evaluation (Tree .body) :=
  if limits.expansionDepth < depth then
    throw (.faulted (.expansionTooDeep word.name limits.expansionDepth))
  else fun s => (Tree.parse .body word.body).map fun body => (.ok body, s)

/-- Bind a name to a body, unless the name is reserved. -/
def bindWord (name : String) (body : Tree .body) : Evaluation Unit := fun s =>
  match UserWord.ofName name body.tokens with
  | .error cause => some (.error (.faulted (.definition cause)), s)
  | .ok word =>
    match s.dictionary.define word with
    | .ok () d => some (.ok (), { s with dictionary := d })
    | .error error d => some (.error (.faulted error), { s with dictionary := d })

end Evaluation

/-! ## Trees -/

namespace Tree

open Evaluation

/-- Evaluate a tree that is reached by a number of calls of user words. -/
def eval (scene : Scene) (limits : Limits) {p : Place} (depth : Nat) : Tree p → Evaluation Unit
  | done => pure ()
  | literal value rest => do
    act value.toText (push scene value)
    rest |>.eval scene limits depth
  | word name _ rest => do
    match ← meaning name with
    | .builtin native => perform scene name native
    | .user user =>
      let body ← enter limits (depth + 1) user
      body |>.eval scene limits (depth + 1)
    rest |>.eval scene limits depth
  | branch opener yes _ rest => do
    let flag ← act opener.name pop
    if flag.truthy then yes |>.eval scene limits depth
    rest |>.eval scene limits depth
  | choice opener yes _ no _ rest => do
    let flag ← act opener.name pop
    if flag.truthy then yes |>.eval scene limits depth
    else no |>.eval scene limits depth
    rest |>.eval scene limits depth
  | loop opener inner closer rest => do
    inner |>.eval scene limits depth
    let flag ← act Keyword.again.name pop
    if flag.truthy then rest |>.eval scene limits depth
    else loop opener inner closer rest |>.eval scene limits depth
  | definition _ name _ body _ rest => do
    bindWord name body
    rest |>.eval scene limits depth
partial_fixpoint

end Tree

end HexArena.Script
