import HexArena.Text.Blank
import HexArena.Text.Fold

/-!
# Piece identifiers

A piece is known by a name that can stand as one word in a script and in front
of the separator of a message: it is not empty, and holds neither the separator
nor a blank.

Main results:

- Definition {lit}`PieceId.ofName`: the identifier with a name, or the first
  rule the name breaks.
- Definition {lit}`PieceId.answersTo`: an identifier answers to its name in any
  letter case.
-/

namespace HexArena

/-- The character between the sender and the payload of a message. -/
def separator : Char := '@'

/-- A name that identifies a piece. -/
structure PieceId where
  name : String
  /-- The name is not empty. -/
  nonempty : name ≠ ""
  /-- The name does not hold the separator of messages. -/
  noSeparator : separator ∉ name.toList
  /-- The name holds no blank. -/
  noBlank : name.toList.any Text.isBlank = false
deriving DecidableEq

/-- A rule for identifiers that a name breaks. -/
inductive IdError where
  | empty
  | containsSeparator (name : String)
  | containsBlank (name : String)
deriving DecidableEq, Repr

/-- The wording of a broken rule. -/
def IdError.message : IdError → String
  | .empty => "piece identifier must not be empty"
  | .containsSeparator name =>
    "piece identifier `" ++ name ++ "` contains the reserved `@` separator"
  | .containsBlank name => "piece identifier `" ++ name ++ "` contains whitespace"

namespace PieceId

instance : Repr PieceId :=
  ⟨fun id _ => repr id.name⟩

/-- The identifier with a name; the rules are tried in the order empty,
separator, blank. -/
def ofName (name : String) : Except IdError PieceId :=
  if nonempty : name = "" then .error .empty
  else if noSeparator : separator ∈ name.toList then .error (.containsSeparator name)
  else if noBlank : name.toList.any Text.isBlank = false then
    .ok ⟨name, nonempty, noSeparator, noBlank⟩
  else .error (.containsBlank name)

/-- The identifier answers to a name that differs from its own at most in the
case of ASCII letters. -/
def answersTo (id : PieceId) (name : String) : Bool :=
  Text.same id.name name

/-- Identifiers are equal if their names are. -/
theorem ext_name {a b : PieceId} (h : a.name = b.name) : a = b := by
  cases a; cases b; simp_all

/-- The name of an identifier gives that identifier. -/
@[simp] theorem ofName_name (id : PieceId) : ofName id.name = .ok id := by
  rw [ofName, dif_neg id.nonempty, dif_neg id.noSeparator, dif_pos id.noBlank]

end PieceId

end HexArena
