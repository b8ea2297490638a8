import HexArena.Text.Decimal
import HexArena.Text.Reader

/-!
# JSON documents

The values of a JSON document and their reading.  Integers are kept apart from
other numbers, because only they are values of the arena.  An escape may name
half of a character; a text in which the halves do not pair up is well-formed,
but it has no characters.

Main results:

- Definition {lit}`Json`: the values of a document.
- Definition {lit}`Json.characters?`: the characters of the code units of a text.
- Definition {lit}`Json.parse?`: the value of a text, if it is a document.
-/

namespace HexArena

/-- A value of a JSON document. -/
inductive Json where
  | null
  | bool (b : Bool)
  | integer (n : Int)
  /-- A number with a fraction or an exponent, or the number minus zero. -/
  | decimal
  /-- A text, if its code units are characters. -/
  | text (s : Option String)
  | array (items : List Json)
  /-- The members of an object, as they are written. -/
  | object (members : List (Option String × Json))
deriving Repr

namespace Json

open Text Text.Reader

/-- The characters that may stand between two tokens. -/
def isSpace (c : Char) : Bool :=
  c == ' ' || c == '\t' || c == '\n' || c == '\r'

/-- Skip what may stand between two tokens. -/
def spaces : Reader Unit := do
  let _ ← takeWhile isSpace

/-! ## Numbers -/

/-- Take the digits of the whole part, which has no leading zero. -/
def wholePart : Reader (List Char) := do
  match ← takeSome Char.isDigit with
  | ['0'] => return ['0']
  | '0' :: _ => refuse
  | digits => return digits

/-- Take a fraction, if there is one. -/
def fraction : Reader Bool := do
  if ← accept '.' then
    let _ ← takeSome Char.isDigit
    return true
  else return false

/-- Take an exponent, if there is one. -/
def exponent : Reader Bool := do
  let mark ← peek
  if mark = some 'e' ∨ mark = some 'E' then
    let _ ← next
    let sign ← peek
    if sign = some '+' ∨ sign = some '-' then
      let _ ← next
    let _ ← takeSome Char.isDigit
    return true
  else return false

/-- Take a number. -/
def number : Reader Json := do
  let negative ← accept '-'
  let digits ← wholePart
  let fractional ← fraction
  let scaled ← exponent
  let n := Nat.ofDigitChars 10 digits 0
  if fractional || scaled || (negative && n == 0) then return .decimal
  else return .integer (if negative then -(n : Int) else n)

/-! ## Texts -/

/-- The first half of a character outside the basic plane. -/
def isHighHalf (n : Nat) : Bool :=
  0xD800 ≤ n && n ≤ 0xDBFF

/-- The second half of a character outside the basic plane. -/
def isLowHalf (n : Nat) : Bool :=
  0xDC00 ≤ n && n ≤ 0xDFFF

/-- The characters of code units, if every half stands beside its other half. -/
def characters? : List Nat → Option (List Char)
  | [] => some []
  | [n] => (charOf? n).map ([·])
  | high :: low :: rest =>
    if isHighHalf high && isLowHalf low then do
      let c ← charOf? (0x10000 + (high - 0xD800) * 0x400 + (low - 0xDC00))
      return c :: (← characters? rest)
    else do
      let c ← charOf? high
      return c :: (← characters? (low :: rest))

/-- Take the rest of an escape and give the code unit it names. -/
def escape : Reader Nat := do
  match ← next with
  | '"' => return '"'.toNat
  | '\\' => return '\\'.toNat
  | '/' => return '/'.toNat
  | 'b' => return 0x08
  | 'f' => return 0x0C
  | 'n' => return 0x0A
  | 'r' => return 0x0D
  | 't' => return 0x09
  | 'u' => codeUnit 4
  | _ => refuse

/-- Take the code units of a text up to its closing quote. -/
def textBody : Nat → Reader (List Nat)
  | 0 => refuse
  | fuel + 1 => do
    let c ← next
    if c = '"' then return []
    else if c = '\\' then
      let unit ← escape
      let rest ← textBody fuel
      return unit :: rest
    else if c.toNat < 0x20 then refuse
    else
      let rest ← textBody fuel
      return c.toNat :: rest

/-- Take a text. -/
def textLiteral : Reader (Option String) := do
  expect '"'
  let units ← textBody (← remaining)
  return (characters? units).map String.ofList

/-! ## Values -/

mutual

/-- Take a value. -/
def value : Nat → Reader Json
  | 0 => refuse
  | fuel + 1 => do
    spaces
    match ← peek with
    | some '"' => return .text (← textLiteral)
    | some '[' =>
      expect '['
      spaces
      if ← accept ']' then return .array []
      return .array (← items fuel)
    | some '\x7b' =>
      expect '\x7b'
      spaces
      if ← accept '\x7d' then return .object []
      return .object (← members fuel)
    | some 'n' => do
      expectAll ['n', 'u', 'l', 'l']
      return .null
    | some 't' => do
      expectAll ['t', 'r', 'u', 'e']
      return .bool true
    | some 'f' => do
      expectAll ['f', 'a', 'l', 's', 'e']
      return .bool false
    | _ => number

/-- Take the items of an array and its closing bracket. -/
def items : Nat → Reader (List Json)
  | 0 => refuse
  | fuel + 1 => do
    let item ← value fuel
    spaces
    if ← accept ',' then
      let rest ← items fuel
      return item :: rest
    else
      expect ']'
      return [item]

/-- Take the members of an object and its closing brace. -/
def members : Nat → Reader (List (Option String × Json))
  | 0 => refuse
  | fuel + 1 => do
    spaces
    let name ← textLiteral
    spaces
    expect ':'
    let member ← value fuel
    spaces
    if ← accept ',' then
      let rest ← members fuel
      return (name, member) :: rest
    else
      expect '\x7d'
      return [(name, member)]

end

/-- The value of a text, if it is a document; every value takes a character, so
the length of the text bounds the depth of the reading. -/
def parse? (s : String) : Option Json :=
  readAll? (do
    let document ← value (2 * s.length + 2)
    spaces
    return document) s

end Json

end HexArena
