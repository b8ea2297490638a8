import HexArena.Lookup
import HexArena.Match.Setup
import HexArena.Script.Interpreter

/-!
# The roster

The scripts of a match, and the interpreters that run them.

Main results:

- Definition {lit}`Roster.enlist`: give a piece a script; an enlisted piece
  keeps its interpreter.
- Definition {lit}`Roster.ofSetup`: the roster of a setup.
-/

namespace HexArena

/-- A script and the interpreter that runs it. -/
structure Entrant where
  interpreter : Script.Interpreter
  script : String
deriving DecidableEq, Repr

/-- The entrants of a match, in the order they were enlisted. -/
structure Roster where
  entrants : List Entrant
deriving DecidableEq, Repr

namespace Roster

/-- A roster without entrants. -/
def empty : Roster := ⟨[]⟩

/-- The entrant of a piece. -/
def find? (r : Roster) (piece : PieceId) : Option Entrant :=
  r.entrants.find? (·.interpreter.owner = piece)

/-- Change the entrant of a piece. -/
def update (r : Roster) (piece : PieceId) (f : Entrant → Entrant) : Roster :=
  ⟨updateFirst (·.interpreter.owner = piece) f r.entrants⟩

/-- Give a piece a script. -/
def enlist (r : Roster) (piece : PieceId) (script : String) (limits : Script.Limits) : Roster :=
  match r.find? piece with
  | some _ => r.update piece fun entrant => { entrant with script := script }
  | none => ⟨r.entrants ++ [⟨.fresh piece limits, script⟩]⟩

/-- The roster of a setup. -/
def ofSetup (s : Setup) : Roster :=
  s.contestants.foldl (fun r c => r.enlist c.placement.id c.script s.limits) .empty

end Roster

end HexArena
