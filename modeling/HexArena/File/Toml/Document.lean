import HexArena.File.Toml.Scalar
import HexArena.File.Toml.Text

/-!
# TOML documents

A document is read line by line into statements, and the statements are put
together into one table.  Values may not be nested too deeply, and dotted names
may not be too long.

Main results:

- Definition {lit}`Toml.value`: the reading of a value.
- Definition {lit}`Toml.parse?`: the table of a text, if it is a document.
-/

namespace HexArena.Toml

open Text Text.Reader

/-! ## Values -/

/-- How deep arrays and tables in braces may stand in each other. -/
def maxNesting : Nat := 79

/-- How many parts a dotted name may have. -/
def maxParts : Nat := 79

/-- A character of a value without quotes or brackets. -/
def isScalarChar (c : Char) : Bool :=
  isBare c || c == '+' || c == '.' || c == ':'

/-- Whether a blank and a digit are next, as between a date and a time of day. -/
def timeFollows : Reader Bool := fun cs =>
  some (match cs with
    | ' ' :: c :: _ => c.isDigit
    | _ => false, cs)

/-- Take a value without quotes or brackets; a blank may divide a date from a
time of day. -/
def scalar : Reader Toml := do
  let run ← takeSome isScalarChar
  if isDate run && (← timeFollows) then
    expect ' '
    let time ← takeSome isScalarChar
    scalar? (run ++ ' ' :: time)
  else scalar? run

/-- Take a value that holds no others. -/
def atom : Reader Toml := do
  match ← peek with
  | some '"' | some '\'' => return .text (← anyText)
  | _ => scalar

/-- Take the items of an array and its closing bracket; a comma may follow the
last one. -/
def items (item : Reader Toml) : Nat → Reader (List Toml)
  | 0 => refuse
  | fuel + 1 => do
    blankLines ((← remaining) + 1)
    if ← accept ']' then return []
    let first ← item
    blankLines ((← remaining) + 1)
    if ← accept ',' then
      let rest ← items item fuel
      return first :: rest
    else
      expect ']'
      return [first]

/-- Take the entries of a table in braces and its closing brace. -/
def entries (new : Reader Toml) : Nat → Entries → Reader Entries
  | 0, _ => refuse
  | fuel + 1, before => do
    let names ← path maxParts
    expect '='
    spaces
    let value ← new
    let after ← (assign value names before : Option Entries)
    spaces
    if ← accept ',' then entries new fuel after
    else
      expect '\x7d'
      return after

/-- Take a value in which others are nested at most {lit}`levels` deep. -/
def value : Nat → Reader Toml
  | 0 => atom
  | levels + 1 => do
    if ← accept '[' then
      return .array false (← items (value levels) ((← remaining) + 1))
    else if ← accept '\x7b' then
      spaces
      if ← accept '\x7d' then return .table .inline []
      return .table .inline (← entries (value levels) ((← remaining) + 1) [])
    else atom

/-! ## Statements -/

/-- Divide a path into its front and its last name. -/
def divide? (path : List String) : Option (List String × String) := do
  return (path.dropLast, ← path.getLast?)

/-- Take a statement. -/
def statement : Reader Statement := do
  if ← accept '[' then
    if ← accept '[' then
      let (front, last) ← (divide? (← path maxParts) : Option _)
      expectAll [']', ']']
      return .item front last
    else
      let (front, last) ← (divide? (← path maxParts) : Option _)
      expect ']'
      return .header front last
  else
    let names ← path maxParts
    expect '='
    spaces
    return .assignment names (← value maxNesting)

/-- Take the statements of a document, each on a line of its own. -/
def statements : Nat → Reader (List Statement)
  | 0 => refuse
  | fuel + 1 => do
    blankLines ((← remaining) + 1)
    if ← atEnd then return []
    let first ← statement
    spaces
    comment
    if (← lineEnd) || (← atEnd) then
      let rest ← statements fuel
      return first :: rest
    else refuse

/-! ## Documents -/

/-- The entries of a text, if it is a document; a byte order mark may stand in
front.  Every statement takes a character, so the length of the text bounds their
number. -/
def parse? (s : String) : Option Entries := do
  let body := match s.toList with
    | '\uFEFF' :: rest => rest
    | cs => cs
  let lines ← readAll? (statements (body.length + 1)) (String.ofList body)
  assemble [] lines []

end HexArena.Toml
