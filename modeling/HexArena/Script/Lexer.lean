import HexArena.Script.Error
import HexArena.Script.Token
import HexArena.Text.Blank
import HexArena.Text.Decimal

/-!
# Reading scripts

Blanks separate the tokens of a script.  A quote at the start of a token opens a
text literal that runs to the next quote.  A lone opening parenthesis opens a
comment that runs to the next closing one, and a lone backslash a remark that
runs to the end of its line.  The reader takes one character at a time and knows
what it is inside of.

Main results:

- Definition {lit}`tokenize`: the tokens of a script, or the first fault in it.
- Definition {lit}`Lexer.classify`: an unquoted run of characters is a number if
  it is a minus sign or nothing followed by digits, and else a word.
-/

namespace HexArena.Script

namespace Lexer

/-- What the reader is inside of. -/
inductive Mode where
  /-- Between two tokens. -/
  | between
  /-- In a text literal that opened on a line; its characters, last first. -/
  | text (start : Nat) (read : List Char)
  /-- In an unquoted run; its characters, last first. -/
  | run (read : List Char)
  /-- In a comment that opened on a line. -/
  | comment (start : Nat)
  /-- In a remark. -/
  | remark
deriving DecidableEq, Repr

/-- The number or word an unquoted run stands for. -/
def classify (raw : List Char) : Except Error Token :=
  let digits := match raw with
    | '-' :: rest => rest
    | _ => raw
  if Text.isDigits digits then
    match Text.readInt64? raw with
    | some n => .ok (.number n)
    | none => .error (.literalOutOfRange (String.ofList raw))
  else .ok (.word (String.ofList raw))

/-- The number of the line after a character. -/
def lineAfter (c : Char) (line : Nat) : Nat :=
  if c = '\n' then line + 1 else line

/-- The tokens of the rest of a script, given what the reader is inside of and
the line it is on. -/
def scan : Mode → Nat → List Char → Except Error (List Token)
  | .between, _, [] => .ok []
  | .text start _, _, [] => .error (.unterminatedText start)
  | .comment start, _, [] => .error (.unterminatedComment start)
  | .remark, _, [] => .ok []
  | .run read, line, [] =>
    match read with
    | ['('] => .error (.unterminatedComment line)
    | ['\\'] => .ok []
    | _ => do
      let token ← classify read.reverse
      return [token]
  | .between, line, c :: rest =>
    if Text.isBlank c then scan .between (lineAfter c line) rest
    else if c = '"' then scan (.text line []) line rest
    else scan (.run [c]) line rest
  | .text start read, line, c :: rest =>
    if c = '"' then do
      let later ← scan .between line rest
      return .text (String.ofList read.reverse) :: later
    else scan (.text start (c :: read)) (lineAfter c line) rest
  | .run read, line, c :: rest =>
    if Text.isBlank c then
      match read with
      | ['('] => scan (.comment line) (lineAfter c line) rest
      | ['\\'] => scan (if c = '\n' then .between else .remark) (lineAfter c line) rest
      | _ => do
        let token ← classify read.reverse
        let later ← scan .between (lineAfter c line) rest
        return token :: later
    else scan (.run (c :: read)) line rest
  | .comment start, line, c :: rest =>
    if c = ')' then scan .between line rest
    else scan (.comment start) (lineAfter c line) rest
  | .remark, line, c :: rest =>
    scan (if c = '\n' then .between else .remark) (lineAfter c line) rest

end Lexer

/-- The tokens of a script, or the first fault in it; lines are counted from
one. -/
def tokenize (source : String) : Except Error (List Token) :=
  Lexer.scan .between 1 source.toList

end HexArena.Script
