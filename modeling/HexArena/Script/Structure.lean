import HexArena.Script.Dictionary

/-!
# The structure of scripts

Before a script runs, its definitions, branches and loops must pair up.  A
definition balances on its own: what is open around it cannot be closed inside,
and the name that it gives must not be reserved in the dictionary.

Main results:

- Definition {lit}`checkStructure`: the first fault in the structure of a list
  of tokens.
- Definition {lit}`checkWord`: the same for the body of a user word, which may
  not hold a definition.
-/

namespace HexArena.Script

/-- A construct that is open. -/
inductive Opened where
  /-- A branch that may still be divided. -/
  | branch
  /-- A divided branch. -/
  | otherwise
  /-- A loop. -/
  | loop
deriving DecidableEq, Repr

/-- The control word that opened a construct or divided it. -/
def Opened.keyword : Opened → Keyword
  | .branch => .branch
  | .otherwise => .otherwise
  | .loop => .loop

/-- What is open at a place in a script, innermost first: constructs of the
definition the place is in, or of the script, and for a definition its name and
the constructs around it. -/
structure Context where
  opened : List Opened
  definition : Option (String × List Opened)
deriving DecidableEq, Repr

/-- Nothing is open. -/
def Context.top : Context := ⟨[], none⟩

/-- The name a definition gives its word. -/
def definitionName : Token → Except Error String
  | .word name => if name = ";" then .error (.definition .empty) else .ok name
  | other => .error (.invalidName other.render)

/-- The fault of a construct that is never closed. -/
def Opened.unclosed (construct : Opened) : Error :=
  .unbalanced construct.keyword.name

/-- The first fault in the structure of the rest of a script. -/
def checkFrom (d : Dictionary) : Context → List Token → Except Error Unit
  | context, [] =>
    match context.definition, context.opened with
    | some (name, _), _ => .error (.unterminatedDefinition name)
    | none, [] => .ok ()
    | none, construct :: _ => .error construct.unclosed
  | context, token :: rest =>
    match token.keyword? with
    | none => checkFrom d context rest
    | some .colon =>
      match context.definition, rest with
      | some (name, _), _ => .error (.nestedDefinition name)
      | none, [] => .error (.unterminatedDefinition "")
      | none, next :: rest => do
        let name ← definitionName next
        if d.isReserved name then .error (.reservedWord name)
        else checkFrom d ⟨[], some (name, context.opened)⟩ rest
    | some .semicolon =>
      match context.definition, context.opened with
      | some (_, around), [] => checkFrom d ⟨around, none⟩ rest
      | some _, construct :: _ => .error construct.unclosed
      | none, _ => .error (.unbalanced token.render)
    | some .branch => checkFrom d { context with opened := .branch :: context.opened } rest
    | some .loop => checkFrom d { context with opened := .loop :: context.opened } rest
    | some .otherwise =>
      match context.opened with
      | .branch :: opened => checkFrom d { context with opened := .otherwise :: opened } rest
      | _ => .error (.unbalanced token.render)
    | some .join =>
      match context.opened with
      | .branch :: opened | .otherwise :: opened =>
        checkFrom d { context with opened := opened } rest
      | _ => .error (.unbalanced token.render)
    | some .again =>
      match context.opened with
      | .loop :: opened => checkFrom d { context with opened := opened } rest
      | _ => .error (.unbalanced token.render)

/-- The first fault in the structure of a script. -/
def checkStructure (d : Dictionary) (tokens : List Token) : Except Error Unit :=
  checkFrom d .top tokens

/-- The first control word of a definition among some tokens. -/
def definitionMark? (tokens : List Token) : Option Keyword :=
  tokens.findSome? fun token =>
    match token.keyword? with
    | some .colon => some .colon
    | some .semicolon => some .semicolon
    | _ => none

/-- The first fault in a user word that is defined outside of a script. -/
def checkWord (d : Dictionary) (word : UserWord) : Except Error Unit :=
  match definitionMark? word.body with
  | some .colon => .error (.nestedDefinition word.name)
  | some mark => .error (.unbalanced mark.name)
  | none => checkStructure d word.body

end HexArena.Script
