import HexArena.File.Json
import HexArena.Script.Execution
import HexArena.World.Command

/-!
# Saved values

The values of the arena that can be saved as JSON and read back.  A record is
an object; names it does not know are ignored together with their values, and a
name it knows may occur once.  A number must be an integer in the range of its
field, and a text must have characters where it is read.

Main results:

- Definition {lit}`Json.record?`: the fields of a record.
- One pair of definitions for each type: its saved form, and the reading of it.
-/

namespace HexArena

namespace Json

/-- The integer of a value in a range. -/
def integerIn? (low high : Int) : Json → Option Int
  | integer n => if low ≤ n ∧ n ≤ high then some n else none
  | _ => none

/-- The natural number of a value up to a bound. -/
def natural? (bound : Nat) (j : Json) : Option Nat :=
  (j.integerIn? 0 bound).map Int.toNat

/-- The text of a value. -/
def text? : Json → Option String
  | text s => s
  | _ => none

/-- The name of a value that is one of several names; it may stand in an object
of its own. -/
def variant? : Json → Option String
  | text s => s
  | object [(s, null)] => s
  | _ => none

/-- The fields of a record with given names: those of an object, each at most
once, or the items of an array in order. -/
def record? (names : List String) : Json → Option (List (String × Json))
  | object members => do
    let named ← members.mapM fun (name, member) => name.map (·, member)
    let known := named.filter (names.contains ·.1)
    if (known.map (·.1)).Nodup then some known else none
  | array items => if items.length ≤ names.length then some (names.zip items) else none
  | _ => none

/-- A field that must be there. -/
def required? {α : Type} (fields : List (String × Json)) (name : String)
    (read : Json → Option α) : Option α := do
  read (← fields.lookup name)

/-- A field that has a value when it is not there. -/
def optional? {α : Type} (fields : List (String × Json)) (name : String)
    (read : Json → Option α) (absent : α) : Option α :=
  match fields.lookup name with
  | some j => read j
  | none => some absent

/-- An object with named members. -/
def record (fields : List (String × Json)) : Json :=
  object (fields.map fun (name, member) => (some name, member))

/-- A component of a coordinate. -/
def component? : Json → Option Int :=
  integerIn? (-2147483648) 2147483647

end Json

/-! ## Coordinates -/

/-- Read a coordinate; its {lit}`y` component may be left out. -/
def Coord.ofJson? (j : Json) : Option Coord := do
  let fields ← j.record? ["x", "y", "z"]
  let x ← Json.required? fields "x" Json.component?
  let y ← Json.optional? fields "y" Json.component? 0
  let z ← Json.required? fields "z" Json.component?
  return ⟨x, y, z⟩

/-- The saved form of a coordinate. -/
def Coord.toJson (c : Coord) : Json :=
  .record [("x", .integer c.x), ("y", .integer c.y), ("z", .integer c.z)]

/-- Read a direction. -/
def Direction.ofJson? (j : Json) : Option Direction := do
  Direction.ofName? (← j.variant?)

/-- The saved form of a direction. -/
def Direction.toJson (d : Direction) : Json :=
  .text (some d.name)

/-! ## Pieces -/

/-- Read an identifier. -/
def PieceId.ofJson? (j : Json) : Option PieceId := do
  (PieceId.ofName (← j.text?)).toOption

/-- The saved form of an identifier. -/
def PieceId.toJson (id : PieceId) : Json :=
  .text (some id.name)

/-- Read a team. -/
def Team.ofJson? (j : Json) : Option Team :=
  j.text?.map Team.mk

/-- The saved form of a team. -/
def Team.toJson (t : Team) : Json :=
  .text (some t.name)

/-- Read a kind. -/
def Kind.ofJson? (j : Json) : Option Kind := do
  Kind.ofName? (← j.variant?)

/-- The saved form of a kind. -/
def Kind.toJson (k : Kind) : Json :=
  .text (some k.name)

/-- Read stats. -/
def Stats.ofJson? (j : Json) : Option Stats := do
  let fields ← j.record? ["attack", "health", "movement", "range"]
  let attack ← Json.required? fields "attack" (Json.natural? maxCount)
  let health ← Json.required? fields "health" (Json.natural? maxCount)
  let movement ← Json.required? fields "movement" (Json.natural? maxCount)
  let range ← Json.required? fields "range" (Json.natural? maxCount)
  return ⟨attack, health, movement, range⟩

/-- The saved form of stats. -/
def Stats.toJson (s : Stats) : Json :=
  .record [("attack", .integer s.attack), ("health", .integer s.health),
    ("movement", .integer s.movement), ("range", .integer s.range)]

/-- Read the refusal of a spawn. -/
def SpawnError.ofJson? (j : Json) : Option SpawnError := do
  SpawnError.ofName? (← j.variant?)

/-- The saved form of the refusal of a spawn. -/
def SpawnError.toJson (e : SpawnError) : Json :=
  .text (some e.name)

/-! ## Limits -/

/-- The largest limit. -/
def Script.Limits.bound : Nat := 18446744073709551615

/-- Read limits; each of them may be left out. -/
def Script.Limits.ofJson? (j : Json) : Option Script.Limits := do
  let fields ← j.record? ["step_limit", "expansion_depth", "stack_limit"]
  let standard := Script.Limits.default
  let stepLimit ← Json.optional? fields "step_limit" (Json.natural? bound) standard.stepLimit
  let expansionDepth ←
    Json.optional? fields "expansion_depth" (Json.natural? bound) standard.expansionDepth
  let stackLimit ← Json.optional? fields "stack_limit" (Json.natural? bound) standard.stackLimit
  return ⟨stepLimit, expansionDepth, stackLimit⟩

/-- The saved form of limits. -/
def Script.Limits.toJson (l : Script.Limits) : Json :=
  .record [("step_limit", .integer l.stepLimit),
    ("expansion_depth", .integer l.expansionDepth), ("stack_limit", .integer l.stackLimit)]

end HexArena
