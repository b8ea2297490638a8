/-!
# Kinds of piece

Every piece is a scout, a sniper or a tank, and its kind fixes its stats.

Main results:

- Definition {lit}`Kind.stats`: attack, health, movement and range of a kind.
-/

namespace HexArena

/-- The numbers a piece starts with. -/
structure Stats where
  /-- The damage of a shot. -/
  attack : Nat
  /-- The damage that downs the piece. -/
  health : Nat
  /-- The spaces the piece may move in a turn. -/
  movement : Nat
  /-- The distance up to which the piece shoots. -/
  range : Nat
deriving DecidableEq, Repr

/-- A kind of piece. -/
inductive Kind where
  | scout
  | sniper
  | tank
deriving DecidableEq, Repr, Inhabited

namespace Kind

/-- The stats of a kind. -/
def stats : Kind → Stats
  | scout => { attack := 1, health := 2, movement := 3, range := 2 }
  | sniper => { attack := 3, health := 2, movement := 1, range := 4 }
  | tank => { attack := 2, health := 4, movement := 1, range := 1 }

/-- The written name of a kind. -/
def name : Kind → String
  | scout => "scout"
  | sniper => "sniper"
  | tank => "tank"

/-- The kind with a written name. -/
def ofName? (s : String) : Option Kind :=
  [scout, sniper, tank].find? (·.name == s)

/-- The written name of a kind gives that kind. -/
@[simp] theorem ofName?_name (k : Kind) : ofName? k.name = some k := by
  cases k <;> decide

end Kind

end HexArena
