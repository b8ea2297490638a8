/-!
# The tables of TOML documents

The values of a TOML document, and how its lines are put together into one
table.  No field of a match file is a truth value, a number with a fraction or a
moment in time, so these are kept without their values.

Main results:

- Definition {lit}`Toml`: the values of a document.
- Definition {lit}`Toml.Statement`: the lines of a document.
- Definition {lit}`Toml.assemble`: the table that statements describe; a name is
  given once.
-/

namespace HexArena

/-- How a table came about, which decides what may still be added to it. -/
inductive Toml.Origin where
  /-- Written in braces: nothing may be added. -/
  | inline
  /-- The header of another table passed through it. -/
  | implied
  /-- It has a header of its own. -/
  | headed
  /-- A dotted name passed through it. -/
  | dotted
deriving DecidableEq, Repr

/-- A value of a TOML document. -/
inductive Toml where
  | integer (n : Int)
  | text (s : String)
  /-- A truth value or a number that is no integer. -/
  | other
  /-- A date, a time of day, or both. -/
  | moment
  /-- An array; one made by headers may still grow. -/
  | array (grows : Bool) (items : List Toml)
  | table (origin : Toml.Origin) (entries : List (String × Toml))
deriving Repr

namespace Toml

/-- The entries of a table. -/
abbrev Entries := List (String × Toml)

/-- Give a name of the entries another value. -/
def reassign (name : String) (new : Toml) (entries : Entries) : Entries :=
  entries.map fun entry => if entry.1 = name then (name, new) else entry

/-! ## Assignments -/

/-- Add a value under a dotted name that is not taken.  The name may lead through
tables without a header of their own and through the last table of an array that
grows, but the table that gets the value came about by dotted names. -/
def assign (new : Toml) : List String → Entries → Option Entries
  | [], _ => none
  | [name], entries =>
    match entries.lookup name with
    | none => some (entries ++ [(name, new)])
    | some _ => none
  | name :: next :: path, entries =>
    match entries.lookup name with
    | none => do
      let inner ← assign new (next :: path) []
      return entries ++ [(name, .table .dotted inner)]
    | some (.table .dotted inner) => do
      let inner ← assign new (next :: path) inner
      return reassign name (.table .dotted inner) entries
    | some (.table .implied inner) =>
      if path.isEmpty then none
      else do
        let inner ← assign new (next :: path) inner
        return reassign name (.table .implied inner) entries
    | some (.array true items) =>
      match items.getLast? with
      | some (.table origin inner) =>
        if path.isEmpty then none
        else do
          let inner ← assign new (next :: path) inner
          return reassign name (.array true (items.dropLast ++ [.table origin inner])) entries
      | _ => none
    | some _ => none

/-! ## Headers -/

/-- Change the table that a header names; in an array that grows, the last table
is meant. -/
def atHeader (change : Entries → Option Entries) : List String → Entries → Option Entries
  | [], entries => change entries
  | name :: path, entries =>
    match entries.lookup name with
    | none => do
      let inner ← atHeader change path []
      return entries ++ [(name, .table .implied inner)]
    | some (.table .inline _) => none
    | some (.table origin inner) => do
      let inner ← atHeader change path inner
      return reassign name (.table origin inner) entries
    | some (.array true items) =>
      match items.getLast? with
      | some (.table origin inner) => do
        let inner ← atHeader change path inner
        return reassign name (.array true (items.dropLast ++ [.table origin inner])) entries
      | _ => none
    | some _ => none

/-- Give a table a header of its own. -/
def openTable (name : String) (entries : Entries) : Option Entries :=
  match entries.lookup name with
  | none => some (entries ++ [(name, .table .headed [])])
  | some (.table .implied inner) => some (reassign name (.table .headed inner) entries)
  | some _ => none

/-- Add an empty table to an array that grows. -/
def openItem (name : String) (entries : Entries) : Option Entries :=
  match entries.lookup name with
  | none => some (entries ++ [(name, .array true [.table .headed []])])
  | some (.array true items) =>
    some (reassign name (.array true (items ++ [.table .headed []])) entries)
  | some _ => none

/-! ## Statements -/

/-- A line of a document. -/
inductive Statement where
  /-- The header of a table. -/
  | header (path : List String) (last : String)
  /-- The header of a table in an array. -/
  | item (path : List String) (last : String)
  /-- A value for a dotted name. -/
  | assignment (path : List String) (new : Toml)
deriving Repr

/-- Add statements to the entries of a document, where assignments go to the
table of the last header. -/
def assemble : List String → List Statement → Entries → Option Entries
  | _, [], entries => some entries
  | _, .header path last :: rest, entries => do
    let entries ← atHeader (openTable last) path entries
    assemble (path ++ [last]) rest entries
  | _, .item path last :: rest, entries => do
    let entries ← atHeader (openItem last) path entries
    assemble (path ++ [last]) rest entries
  | current, .assignment path new :: rest, entries => do
    let entries ← atHeader (assign new path) current entries
    assemble current rest entries

end Toml

end HexArena
