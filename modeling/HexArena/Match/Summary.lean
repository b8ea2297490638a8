import HexArena.Match.Play

/-!
# Match summaries

The text that is printed when a match stops: who won, and a table of the
pieces.

Main results:

- Definition {lit}`summary`: the text for a world and a score.
-/

namespace HexArena

/-- The text with blanks behind it up to a width; a longer text is not cut. -/
def padRight (width : Nat) (s : String) : String :=
  String.ofList (s.toList ++ List.replicate (width - s.length) ' ')

/-- The text with blanks before it up to a width; a longer text is not cut. -/
def padLeft (width : Nat) (s : String) : String :=
  String.ofList (List.replicate (width - s.length) ' ' ++ s.toList)

namespace Summary

/-- The widths of the text columns. -/
def textWidths : List Nat := [12, 8, 7, 9]

/-- The width of a number column. -/
def numberWidth : Nat := 6

/-- A line of the table. -/
def row (texts numbers : List String) : String :=
  " ".intercalate
    (List.zipWith padRight textWidths texts ++ numbers.map (padLeft numberWidth)) ++ "\n"

/-- The names of the columns. -/
def header : String :=
  row ["piece", "team", "kind", "status"]
    ["health", "dealt", "taken", "moved", "downed", "turns"]

/-- What has become of a piece. -/
def status (p : Piece) : String :=
  if !p.alive then "destroyed"
  else if p.deathFlag then "downed"
  else "standing"

/-- The line of a piece. -/
def pieceRow (p : Piece) : String :=
  row [p.id.name, p.team.name, p.kind.name, status p]
    ([p.health, p.damageDealt, p.damageTaken, p.spacesMoved, p.enemiesDefeated, p.turnsTaken].map
      fun n => toString n)

/-- What came of the match. -/
def verdict (score : Score) : String :=
  match score.winner, score.concluded with
  | some team, _ => team.name ++ " wins"
  | none, true => "no team survived"
  | none, false => "undecided"

end Summary

/-- The text for a world and a score. -/
def summary (w : World) (score : Score) : String :=
  Summary.verdict score ++ " after " ++ toString score.roundsPlayed ++ " rounds played\n" ++
    Summary.header ++ String.join (w.pieces.map Summary.pieceRow)

end HexArena
