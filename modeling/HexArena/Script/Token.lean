/-!
# Tokens

A script is a list of tokens: integer literals, text literals and words.

Main results:

- Definition {lit}`Token`: the smallest units of a script.
- Definition {lit}`Token.render`: the written form of a token.
-/

namespace HexArena.Script

/-- The smallest unit of a script. -/
inductive Token where
  /-- An integer literal. -/
  | number (n : Int)
  /-- A text literal. -/
  | text (s : String)
  /-- A word, to be looked up when it is reached. -/
  | word (name : String)
deriving DecidableEq, Repr

/-- The written form of a token. -/
def Token.render : Token → String
  | .number n => toString n
  | .text s => "\"" ++ s ++ "\""
  | .word name => name

end HexArena.Script
