import HexArena.File.Toml.Document
import HexArena.Match.Setup
import HexArena.World.Basic

/-!
# Match files

A match file describes the board, the limits and the pieces of a match, and
names the scripts of the pieces.  Reading it checks its form; resolving it loads
the scripts and checks what the form cannot say.

Main results:

- Definition {lit}`MatchFile.parse?`: the match file of a text.
- Definition {lit}`MatchFile.resolve`: the setup of a match file, or the first
  reason there is none.
-/

namespace HexArena

/-- A piece as a match file describes it. -/
structure PieceEntry where
  id : String
  team : String
  kind : Kind
  position : Coord
  rotation : Nat
  /-- The place of the script, as seen from the match file. -/
  script : String
deriving DecidableEq, Repr

/-- A match as a match file describes it. -/
structure MatchFile where
  boardRadius : Nat
  mailboxCapacity : Nat
  maxRounds : Nat
  limits : Script.Limits
  pieces : List PieceEntry
deriving DecidableEq, Repr

/-! ## Fields -/

namespace Toml

/-- The integer of a value in a range. -/
def integerIn? (low high : Int) : Toml → Option Int
  | integer n => if low ≤ n ∧ n ≤ high then some n else none
  | _ => none

/-- The natural number of a value up to a bound. -/
def natural? (bound : Nat) (t : Toml) : Option Nat :=
  (t.integerIn? 0 bound).map Int.toNat

/-- The text of a value. -/
def text? : Toml → Option String
  | text s => some s
  | _ => none

/-- The value holds nothing. -/
def isHollow : Toml → Bool
  | array _ items => items.isEmpty
  | table _ entries => entries.isEmpty
  | _ => false

/-- The name of a value that is one of several names; it may stand in a table of
its own, with nothing in it. -/
def variant? : Toml → Option String
  | text s => some s
  | table _ [(s, inner)] => if inner.isHollow then some s else none
  | _ => none

/-- The items of an array. -/
def items? : Toml → Option (List Toml)
  | array _ items => some items
  | _ => none

/-- The fields of a record with given names: the entries of a table, or the
items of an array in order.  A moment is a record without any of these fields. -/
def record? (names : List String) : Toml → Option Entries
  | table _ entries => some entries
  | array _ items => some (names.zip items)
  | moment => some []
  | _ => none

/-- The fields of a record that has no others than those with given names. -/
def strictRecord? (names : List String) (t : Toml) : Option Entries :=
  (t.record? names).filter fun fields => fields.all (names.contains ·.1)

/-- A field that must be there. -/
def required? {α : Type} (fields : Entries) (name : String) (read : Toml → Option α) :
    Option α := do
  read (← fields.lookup name)

/-- A field that has a value when it is not there. -/
def optional? {α : Type} (fields : Entries) (name : String) (read : Toml → Option α)
    (absent : α) : Option α :=
  match fields.lookup name with
  | some t => read t
  | none => some absent

/-- A component of a coordinate. -/
def component? : Toml → Option Int :=
  integerIn? (-2147483648) 2147483647

end Toml

/-- The largest limit and the largest capacity. -/
def MatchFile.sizeBound : Nat := 18446744073709551615

/-- Read a position; only its {lit}`x` component must be there. -/
def Coord.ofToml? (t : Toml) : Option Coord := do
  let fields ← t.strictRecord? ["x", "y", "z"]
  let x ← Toml.required? fields "x" Toml.component?
  let y ← Toml.optional? fields "y" Toml.component? 0
  let z ← Toml.optional? fields "z" Toml.component? 0
  return ⟨x, y, z⟩

/-- Read limits; each of them may be left out, and other names are ignored. -/
def Script.Limits.ofToml? (t : Toml) : Option Script.Limits := do
  let fields ← t.record? ["step_limit", "expansion_depth", "stack_limit"]
  let size := Toml.natural? MatchFile.sizeBound
  let standard := Script.Limits.default
  let stepLimit ← Toml.optional? fields "step_limit" size standard.stepLimit
  let expansionDepth ← Toml.optional? fields "expansion_depth" size standard.expansionDepth
  let stackLimit ← Toml.optional? fields "stack_limit" size standard.stackLimit
  return ⟨stepLimit, expansionDepth, stackLimit⟩

/-- Read a piece; only its rotation may be left out. -/
def PieceEntry.ofToml? (t : Toml) : Option PieceEntry := do
  let fields ← t.strictRecord? ["id", "team", "kind", "position", "rotation", "script"]
  let id ← Toml.required? fields "id" Toml.text?
  let team ← Toml.required? fields "team" Toml.text?
  let kind ← Toml.required? fields "kind" fun t => t.variant?.bind Kind.ofName?
  let position ← Toml.required? fields "position" Coord.ofToml?
  let rotation ← Toml.optional? fields "rotation" (Toml.natural? 255) 0
  let script ← Toml.required? fields "script" Toml.text?
  return ⟨id, team, kind, position, rotation, script⟩

namespace MatchFile

/-- The number of rounds of a match file that sets none. -/
def defaultRounds : Nat := 100

/-- The largest radius of a board in a match file. -/
def maxRadius : Nat := 65536

/-- Read a match file; everything may be left out. -/
def ofToml? (t : Toml) : Option MatchFile := do
  let fields ← t.strictRecord?
    ["board_radius", "mailbox_capacity", "max_rounds", "interpreter", "pieces"]
  let boardRadius ←
    Toml.optional? fields "board_radius" (Toml.natural? maxCount) World.defaultRadius
  let mailboxCapacity ←
    Toml.optional? fields "mailbox_capacity" (Toml.natural? sizeBound) World.defaultCapacity
  let maxRounds ← Toml.optional? fields "max_rounds" (Toml.natural? maxCount) defaultRounds
  let limits ←
    Toml.optional? fields "interpreter" Script.Limits.ofToml? Script.Limits.default
  let pieces ←
    Toml.optional? fields "pieces" (fun t => t.items?.bind (·.mapM PieceEntry.ofToml?)) []
  return ⟨boardRadius, mailboxCapacity, maxRounds, limits, pieces⟩

/-- The match file of a text. -/
def parse? (s : String) : Option MatchFile := do
  ofToml? (.table .headed (← Toml.parse? s))

/-! ## Resolving -/

/-- Why a match file has no setup. -/
inductive Problem where
  | noPieces
  | noRounds
  | boardTooLarge (radius : Nat)
  | invalidId (written : String) (cause : IdError)
  | invalidRotation (id : PieceId) (rotation : Nat)
  | scriptNotLoaded (id : PieceId) (cause : String)
  | farOutside (id : PieceId) (position : Coord)
deriving DecidableEq, Repr

/-- The messages of a problem, from the outermost to the innermost cause. -/
def Problem.messages : Problem → List String
  | .noPieces => ["match file declares no pieces"]
  | .noRounds => ["max_rounds must be at least 1"]
  | .boardTooLarge radius =>
    ["board_radius " ++ toString radius ++ " exceeds the limit of " ++ toString maxRadius]
  | .invalidId written cause => ["invalid piece id `" ++ written ++ "`", cause.message]
  | .invalidRotation id rotation =>
    ["piece `" ++ id.name ++ "` has rotation " ++ toString rotation ++ "; expected 0 through 5"]
  | .scriptNotLoaded id cause => ["failed to load the script of `" ++ id.name ++ "`", cause]
  | .farOutside id position =>
    ["piece `" ++ id.name ++ "` is placed at (" ++ toString position.x ++ ", " ++
      toString position.y ++ ", " ++ toString position.z ++ "), far outside any board"]

/-- A component is farther from the center than any board reaches. -/
def isFar (position : Coord) : Bool :=
  maxRadius < position.x.natAbs || maxRadius < position.y.natAbs || maxRadius < position.z.natAbs

/-- The contestant a piece of a match file describes. -/
def contestant (load : String → Except String String) (entry : PieceEntry) :
    Except Problem Contestant := do
  let id ← (PieceId.ofName entry.id).mapError (.invalidId entry.id)
  if 5 < entry.rotation then throw (.invalidRotation id entry.rotation)
  let script ← (load entry.script).mapError (.scriptNotLoaded id)
  if isFar entry.position then throw (.farOutside id entry.position)
  return ⟨⟨id, ⟨entry.team⟩, entry.kind, entry.position, entry.rotation⟩, script⟩

/-- The contestants of the pieces of a match file, or the first problem. -/
def contestants (load : String → Except String String) :
    List PieceEntry → Except Problem (List Contestant)
  | [] => .ok []
  | entry :: rest => do
    let first ← contestant load entry
    let others ← contestants load rest
    return first :: others

/-- The setup of a match file, with scripts loaded by {lit}`load`. -/
def resolve (file : MatchFile) (load : String → Except String String) :
    Except Problem Setup := do
  if file.pieces.isEmpty then throw .noPieces
  if file.maxRounds = 0 then throw .noRounds
  if maxRadius < file.boardRadius then throw (.boardTooLarge file.boardRadius)
  let contestants ← contestants load file.pieces
  return ⟨file.boardRadius, file.mailboxCapacity, file.limits, contestants⟩

end MatchFile

end HexArena
