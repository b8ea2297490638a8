import HexArena.File.Toml.Basic
import HexArena.Number
import HexArena.Text.Decimal
import HexArena.Text.Reader

/-!
# Numbers and moments in TOML documents

The values that are written as a run of characters without quotes or brackets:
integers, other numbers, truth values, dates and times of day.

Main results:

- Definition {lit}`Toml.integer?`: the integer of a run.
- Definition {lit}`Toml.isFloat`: a run is a number with a fraction or an
  exponent, and as a double-precision number it is not positive infinity.
- Definition {lit}`Toml.isMoment`: a run is a date, a time of day, or both.
- Definition {lit}`Toml.scalar?`: the value of a run.
-/

namespace HexArena.Toml

open Text

/-! ## Integers -/

/-- The digits of a run without the underscores, each of which stands between
two digits. -/
def ungroup : List Char → Option (List Char)
  | [] => none
  | [c] => if c = '_' then none else some [c]
  | c :: '_' :: rest => do
    if c = '_' then none
    else
      match rest with
      | '_' :: _ => none
      | _ => return c :: (← ungroup rest)
  | c :: rest => do
    if c = '_' then none else return c :: (← ungroup rest)

/-- The decimal digits of a run. -/
def grouped? (cs : List Char) : Option (List Char) :=
  (ungroup cs).filter isDigits

/-- Decimal digits without a leading zero. -/
def wholeDigits? (cs : List Char) : Option (List Char) := do
  let digits ← grouped? cs
  match digits with
  | '0' :: _ :: _ => none
  | _ => return digits

/-- The characters without a sign in front. -/
def unsigned : List Char → List Char
  | '+' :: cs => cs
  | '-' :: cs => cs
  | cs => cs

/-- A number with the sign that a run starts with. -/
def withSign (cs : List Char) (n : Nat) : Int :=
  if cs.head? = some '-' then -(n : Int) else n

/-- The integer a run of characters stands for. -/
def integer? : List Char → Option Int
  | '0' :: 'x' :: cs => (ungroup cs).bind (digitsIn? 16) |>.map fun n => (n : Int)
  | '0' :: 'o' :: cs => (ungroup cs).bind (digitsIn? 8) |>.map fun n => (n : Int)
  | '0' :: 'b' :: cs => (ungroup cs).bind (digitsIn? 2) |>.map fun n => (n : Int)
  | cs => do
    let digits ← wholeDigits? (unsigned cs)
    return withSign cs (Nat.ofDigitChars 10 digits 0)

/-! ## Other numbers -/

/-- A character of a group of decimal digits. -/
def isGroupChar (c : Char) : Bool :=
  c.isDigit || c == '_'

/-- The exponent a run of characters stands for; no characters stand for zero. -/
def exponent? : List Char → Option Int
  | [] => some 0
  | 'e' :: cs | 'E' :: cs => do
    let digits ← grouped? (unsigned cs)
    return withSign cs (Nat.ofDigitChars 10 digits 0)
  | _ => none

/-- The number a run without a sign stands for, as an integer and the power of
ten it is multiplied with. -/
def magnitude? (cs : List Char) : Option (Nat × Int) :=
  match cs.span isGroupChar with
  | (_, []) => none
  | (whole, '.' :: rest) => do
    let whole ← wholeDigits? whole
    let fraction ← grouped? (rest.takeWhile isGroupChar)
    let power ← exponent? (rest.dropWhile isGroupChar)
    return (Nat.ofDigitChars 10 (whole ++ fraction) 0, power - fraction.length)
  | (whole, rest) => do
    let whole ← wholeDigits? whole
    let power ← exponent? rest
    return (Nat.ofDigitChars 10 whole 0, power)

/-- The least number whose nearest double-precision number is infinite: it lies
halfway between the largest finite one and the next power of two. -/
def infinityBound : Nat := Nat.pow 2 1024 - Nat.pow 2 970

/-- The nearest double-precision number of {lit}`n` times a power of ten is
infinite.  The number of digits tells unless it is close to that of the bound. -/
def roundsToInfinity (n : Nat) (power : Int) : Bool :=
  let digits := (Nat.toDigits 10 n).length + power
  if n = 0 ∨ digits < 300 then false
  else if 310 < digits then true
  else if 0 ≤ power then decide (infinityBound ≤ n * Nat.pow 10 power.toNat)
  else decide (infinityBound * Nat.pow 10 (-power).toNat ≤ n)

/-- A run of characters is a number with a fraction, an exponent or both, or one
of the special numbers; a positive number must not become infinite. -/
def isFloat (cs : List Char) : Bool :=
  let body := unsigned cs
  body == ['i', 'n', 'f'] || body == ['n', 'a', 'n'] ||
    match magnitude? body with
    | some (n, power) => cs.head? == some '-' || !roundsToInfinity n power
    | none => false

/-! ## Moments -/

/-- The number of some decimal digits, if it is in a range. -/
def digitsBetween (low high : Nat) (cs : List Char) : Bool :=
  isDigits cs && decide (low ≤ Nat.ofDigitChars 10 cs 0) &&
    decide (Nat.ofDigitChars 10 cs 0 ≤ high)

/-- The year has a leap day. -/
def isLeapYear (year : Nat) : Bool :=
  year % 4 == 0 && (year % 100 != 0 || year % 400 == 0)

/-- The number of days of a month. -/
def daysOfMonth (year month : Nat) : Nat :=
  if month = 2 then if isLeapYear year then 29 else 28
  else if month ∈ [4, 6, 9, 11] then 30
  else 31

/-- A run of characters is a date. -/
def isDate : List Char → Bool
  | [a, b, c, d, '-', e, f, '-', g, h] =>
    let year := [a, b, c, d]
    let month := [e, f]
    isDigits year && digitsBetween 1 12 month &&
      digitsBetween 1
        (daysOfMonth (Nat.ofDigitChars 10 year 0) (Nat.ofDigitChars 10 month 0)) [g, h]
  | _ => false

/-- The characters behind a time of day. -/
def afterTime? : List Char → Option (List Char)
  | a :: b :: ':' :: c :: d :: ':' :: e :: f :: rest =>
    if digitsBetween 0 23 [a, b] && digitsBetween 0 59 [c, d] && digitsBetween 0 60 [e, f] then
      match rest with
      | '.' :: fraction =>
        if (fraction.takeWhile Char.isDigit).isEmpty then none
        else some (fraction.dropWhile Char.isDigit)
      | _ => some rest
    else none
  | _ => none

/-- A run of characters is the offset of a time zone. -/
def isOffset : List Char → Bool
  | ['Z'] | ['z'] => true
  | [sign, a, b, ':', c, d] =>
    (sign == '+' || sign == '-') && digitsBetween 0 23 [a, b] && digitsBetween 0 59 [c, d]
  | _ => false

/-- A run of characters is a time of day that follows a date; it may have an
offset. -/
def isTimeOfDate (cs : List Char) : Bool :=
  (afterTime? cs).any fun rest => rest.isEmpty || isOffset rest

/-- A run of characters is a date, a time of day, or both. -/
def isMoment (cs : List Char) : Bool :=
  isDate cs || afterTime? cs == some [] ||
    (isDate (cs.take 10) &&
      match cs.drop 10 with
      | mark :: time => (mark == 'T' || mark == 't' || mark == ' ') && isTimeOfDate time
      | [] => false)

/-! ## Runs of characters -/

/-- The value of a run of characters. -/
def scalar? (cs : List Char) : Option Toml :=
  match integer? cs with
  | some n => if Fits64 n then some (.integer n) else none
  | none =>
    if cs == ['t', 'r', 'u', 'e'] || cs == ['f', 'a', 'l', 's', 'e'] || isFloat cs then
      some .other
    else if isMoment cs then some .moment
    else none

end HexArena.Toml
