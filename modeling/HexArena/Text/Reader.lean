/-!
# Reading text

Small readers that take characters from the front of a text and can be put
together to read a file format.

Main results:

- Definition {lit}`Reader`: a reader takes a part of the characters, or refuses.
- Definition {lit}`Reader.readAll?`: what a reader makes of a whole text.
-/

namespace HexArena.Text

/-- Takes some characters from the front of a text, or refuses it. -/
abbrev Reader := StateT (List Char) Option

namespace Reader

/-- Refuse the text. -/
def refuse {α : Type} : Reader α := fun _ => none

/-- Look at the next character. -/
def peek : Reader (Option Char) := fun cs => some (cs.head?, cs)

/-- Take the next character. -/
def next : Reader Char
  | [] => none
  | c :: rest => some (c, rest)

/-- Take a given character. -/
def expect (c : Char) : Reader Unit := do
  if (← next) != c then refuse

/-- Take the characters of a given text. -/
def expectAll : List Char → Reader Unit
  | [] => pure ()
  | c :: rest => do
    expect c
    expectAll rest

/-- Take a given character if it is next. -/
def accept (c : Char) : Reader Bool
  | d :: rest => some (if c = d then (true, rest) else (false, d :: rest))
  | [] => some (false, [])

/-- Take the characters of a given text if they are next. -/
def acceptAll (text : List Char) : Reader Bool := fun cs =>
  some (if text.isPrefixOf cs then (true, cs.drop text.length) else (false, cs))

/-- Take characters as long as a condition holds. -/
def takeWhile (p : Char → Bool) : Reader (List Char) := fun cs =>
  some (cs.span p)

/-- Take one or more characters as long as a condition holds. -/
def takeSome (p : Char → Bool) : Reader (List Char) := do
  let cs ← takeWhile p
  if cs.isEmpty then refuse else return cs

/-- Whether no character is left. -/
def atEnd : Reader Bool := fun cs => some (cs.isEmpty, cs)

/-- The number of characters left, which bounds how often a reader that takes
at least one can be repeated. -/
def remaining : Reader Nat := fun cs => some (cs.length, cs)

/-- What a reader makes of a whole text; it refuses when characters are left. -/
def readAll? {α : Type} (reader : Reader α) (s : String) : Option α :=
  match reader s.toList with
  | some (a, []) => some a
  | _ => none

end Reader

/-! ## Digits of other bases -/

/-- The value of a hexadecimal digit. -/
def hexDigit? (c : Char) : Option Nat :=
  if c.isDigit then some (c.toNat - '0'.toNat)
  else if 'a' ≤ c ∧ c ≤ 'f' then some (c.toNat - 'a'.toNat + 10)
  else if 'A' ≤ c ∧ c ≤ 'F' then some (c.toNat - 'A'.toNat + 10)
  else none

/-- The value of digits in a base. -/
def digitsIn? (base : Nat) (cs : List Char) : Option Nat :=
  cs.foldl (fun value c => do
    let value ← value
    let digit ← hexDigit? c
    if digit < base then some (value * base + digit) else none) (some 0)

/-- The character with a code point, if there is one. -/
def charOf? (n : Nat) : Option Char :=
  if n.isValidChar then some (Char.ofNat n) else none

/-- Take a character written as {lit}`count` hexadecimal digits. -/
def Reader.codeUnit (count : Nat) : Reader Nat := fun cs => do
  let digits := cs.take count
  if digits.length < count then none
  let value ← digitsIn? 16 digits
  return (value, cs.drop count)

end HexArena.Text
