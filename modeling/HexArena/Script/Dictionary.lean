import HexArena.Lookup
import HexArena.Script.Error
import HexArena.Script.Keyword
import HexArena.Script.Vocabulary
import HexArena.Text.Blank

/-!
# The dictionary

The words a script may use, each under its name in lower case: the built-in words, which
every dictionary starts with, and the user words, which scripts define and redefine.  A
definition of a reserved name is refused, and a redefined word keeps the spelling of its
first definition.

Main results:

- Definition {lit}`Dictionary.standard`: the dictionary of the built-in words.
- Definition {lit}`Dictionary.lookup`: what a name means.
- Definition {lit}`Dictionary.define`: bind a user word, unless its name is
  reserved.
-/

namespace HexArena.Script

/-- A name for a list of tokens that take its place wherever it is reached. -/
structure UserWord where
  name : String
  body : List Token
  /-- The name is more than blanks. -/
  named : Text.isBlankText name = false
deriving DecidableEq, Repr

/-- The user word with a name and a body. -/
def UserWord.ofName (name : String) (body : List Token) : Except NameError UserWord :=
  if named : Text.isBlankText name = false then .ok ⟨name, body, named⟩
  else .error .empty

/-- What a name means. -/
inductive Meaning where
  | builtin (word : Builtin)
  | user (word : UserWord)
deriving DecidableEq, Repr

/-- The meaning of a name to which a user word is bound: an earlier user word keeps its
spelling and gets the body. -/
def Meaning.rebind (new : UserWord) : Meaning → Meaning
  | builtin _ => user new
  | user old => user { old with body := new.body }

/-- The user word that is meant. -/
def Meaning.userWord? : Meaning → Option UserWord
  | builtin _ => none
  | user word => some word

/-- A name in lower case and what it means. -/
structure Entry where
  key : String
  meaning : Meaning
deriving DecidableEq, Repr

/-- What the names of a script mean. -/
structure Dictionary where
  entries : List Entry
deriving DecidableEq, Repr

namespace Dictionary

/-- The dictionary of the built-in words. -/
def standard : Dictionary :=
  ⟨Builtin.all.map fun word => ⟨word.name, .builtin word⟩⟩

/-- The meaning of a name. -/
def lookup (d : Dictionary) (name : String) : Option Meaning :=
  (d.entries.find? (·.key == Text.fold name)).map Entry.meaning

/-- The name means a built-in word. -/
def isBuiltin (d : Dictionary) (name : String) : Bool :=
  match d.lookup name with
  | some (.builtin _) => true
  | _ => false

/-- The name belongs to a control word or a built-in word. -/
def isReserved (d : Dictionary) (name : String) : Bool :=
  (Keyword.ofName? name).isSome || d.isBuiltin name

/-- The user word a name means. -/
def userWord? (d : Dictionary) (name : String) : Option UserWord :=
  (d.lookup name).bind Meaning.userWord?

/-- The user words, in the order of their first definitions. -/
def words (d : Dictionary) : List UserWord :=
  d.entries.filterMap (·.meaning.userWord?)

/-- Bind a word to its name. -/
def bind (d : Dictionary) (new : UserWord) : Dictionary :=
  let key := Text.fold new.name
  match d.lookup new.name with
  | some _ =>
    ⟨updateFirst (·.key == key)
      (fun entry => { entry with meaning := entry.meaning.rebind new }) d.entries⟩
  | none => ⟨d.entries ++ [⟨key, .user new⟩]⟩

/-- Bind a word, unless its name is reserved; the dictionary is left in either case. -/
def define (d : Dictionary) (new : UserWord) : EStateM.Result Error Dictionary Unit :=
  if d.isReserved new.name then .error (.reservedWord new.name) d
  else .ok () (d.bind new)

end Dictionary

end HexArena.Script
