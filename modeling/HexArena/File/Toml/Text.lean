import HexArena.Text.Reader

/-!
# Blanks, texts and names in TOML documents

A text stands in double quotes, where a backslash starts an escape, or in single
quotes, where nothing does.  Three quotes start a text that may go over several
lines, and three quotes end it.

Main results:

- Definition {lit}`Toml.blankLines`: blanks, comments and line ends.
- Definition {lit}`Toml.anyText`: a text of any of the four forms.
- Definition {lit}`Toml.path`: a dotted name.
-/

namespace HexArena.Toml

open Text Text.Reader

/-! ## Blanks and comments -/

/-- A blank within a line. -/
def isSpace (c : Char) : Bool :=
  c == ' ' || c == '\t'

/-- A control character, which may stand neither in a text nor in a comment. -/
def isControl (c : Char) : Bool :=
  (c.toNat < 0x20 && c != '\t') || c.toNat == 0x7F

/-- Skip the blanks within a line. -/
def spaces : Reader Unit := do
  let _ ← takeWhile isSpace

/-- Skip a comment, if there is one. -/
def comment : Reader Unit := do
  if ← accept '#' then
    let _ ← takeWhile fun c => !isControl c

/-- Take the end of a line, if it is next. -/
def lineEnd : Reader Bool := do
  if ← accept '\n' then return true
  else if ← accept '\r' then
    expect '\n'
    return true
  else return false

/-- Skip blanks, comments and line ends. -/
def blankLines : Nat → Reader Unit
  | 0 => refuse
  | fuel + 1 => do
    spaces
    comment
    if ← lineEnd then blankLines fuel

/-! ## Texts on one line -/

/-- Take the rest of an escape. -/
def escape : Reader Char := do
  match ← next with
  | 'b' => return '\x08'
  | 't' => return '\t'
  | 'n' => return '\n'
  | 'f' => return '\x0c'
  | 'r' => return '\r'
  | '"' => return '"'
  | '\\' => return '\\'
  | 'u' => charOf? (← codeUnit 4)
  | 'U' => charOf? (← codeUnit 8)
  | _ => refuse

/-- Take the characters of a text up to its closing quote. -/
def textBody : Nat → Reader (List Char)
  | 0 => refuse
  | fuel + 1 => do
    let c ← next
    if c = '"' then return []
    else if c = '\\' then
      let c ← escape
      let rest ← textBody fuel
      return c :: rest
    else if isControl c then refuse
    else
      let rest ← textBody fuel
      return c :: rest

/-- Take a text in double quotes. -/
def basicText : Reader String := do
  expect '"'
  let cs ← textBody (← remaining)
  return String.ofList cs

/-- Take a text in single quotes, which has no escapes. -/
def literalText : Reader String := do
  expect '\''
  let cs ← takeWhile fun c => c != '\'' && !isControl c
  expect '\''
  return String.ofList cs

/-! ## Texts over several lines -/

/-- Take a run of quotes in a text that three quotes end: those of the run that
belong to the text, and whether the others end it. -/
def quoteRun (quote : Char) : Reader (List Char × Bool) := do
  let run ← takeWhile (· == quote)
  if run.length < 3 then return (run, false)
  else if run.length ≤ 5 then return (run.drop 3, true)
  else refuse

/-- Whether only blanks stand before the end of the line. -/
def lineIsOver : Reader Bool := fun cs =>
  some (match cs.dropWhile isSpace with
    | '\n' :: _ => true
    | '\r' :: '\n' :: _ => true
    | _ => false, cs)

/-- Skip blanks and line ends. -/
def blanks : Nat → Reader Unit
  | 0 => refuse
  | fuel + 1 => do
    spaces
    if ← lineEnd then blanks fuel

/-- Take the characters of a text up to its three closing quotes.  A line end is
a line feed; with {lit}`escapes`, a backslash at the end of a line drops all
blanks up to the next character. -/
def longBody (quote : Char) (escapes : Bool) : Nat → Reader (List Char)
  | 0 => refuse
  | fuel + 1 => do
    let following ← peek
    if following = some quote then
      let (quotes, ends) ← quoteRun quote
      if ends then return quotes
      let rest ← longBody quote escapes fuel
      return quotes ++ rest
    else if ← lineEnd then
      let rest ← longBody quote escapes fuel
      return '\n' :: rest
    else
      let c ← next
      if escapes && c == '\\' then
        if ← lineIsOver then
          blanks ((← remaining) + 1)
          longBody quote escapes fuel
        else
          let c ← escape
          let rest ← longBody quote escapes fuel
          return c :: rest
      else if isControl c then refuse
      else
        let rest ← longBody quote escapes fuel
        return c :: rest

/-- Take the rest of a text behind its three opening quotes; a line end right
behind them is dropped. -/
def longText (quote : Char) (escapes : Bool) : Reader String := do
  let _ ← lineEnd
  let cs ← longBody quote escapes ((← remaining) + 1)
  return String.ofList cs

/-- Take a text of any form. -/
def anyText : Reader String := do
  if ← acceptAll ['"', '"', '"'] then longText '"' true
  else if ← acceptAll ['\'', '\'', '\''] then longText '\'' false
  else if (← peek) = some '"' then basicText
  else literalText

/-! ## Names -/

/-- A character of a name without quotes. -/
def isBare (c : Char) : Bool :=
  c.isAlphanum || c == '_' || c == '-'

/-- Take a name. -/
def name : Reader String := do
  match ← peek with
  | some '"' => basicText
  | some '\'' => literalText
  | _ => return String.ofList (← takeSome isBare)

/-- Take a dotted name of at most {lit}`count` parts and the blanks around it. -/
def path : Nat → Reader (List String)
  | 0 => refuse
  | count + 1 => do
    spaces
    let first ← name
    spaces
    if ← accept '.' then
      let rest ← path count
      return first :: rest
    else return [first]

end HexArena.Toml
