import HexArena.File.MatchFile
import HexArena.Match.Summary
import HexArena.Text.Decimal

/-!
# The command line

Two subcommands: one plays the match of a match file and prints its summary, the
other checks a script without running it.

Main results:

- Definition {lit}`Request.parse`: what the arguments ask for.
- Definition {lit}`Request.respond`: the answer, given the texts of the files.
- Definition {lit}`Request.needs`: the files the answer depends on.
-/

namespace HexArena

/-- What the arguments ask for. -/
inductive Request where
  /-- Play the match of a match file, with another number of rounds if one is
  given. -/
  | run (path : String) (rounds : Option Nat)
  /-- Check a script. -/
  | check (path : String)
  | version
  /-- The arguments ask for nothing that exists. -/
  | misuse
deriving DecidableEq, Repr

/-- What the program answers. -/
structure Response where
  exit : Nat
  /-- The text on standard output. -/
  output : String
  /-- The messages of an error, from the outermost to the innermost cause. -/
  errors : List String
deriving DecidableEq, Repr

namespace Response

/-- The answer of a request that was fulfilled. -/
def success (output : String) : Response := ⟨0, output, []⟩

/-- The answer of a request that failed. -/
def failure (messages : List String) : Response := ⟨1, "", messages⟩

/-- The answer to arguments that ask for nothing that exists. -/
def misuse : Response := ⟨2, "", []⟩

/-- The answer when a number leaves its range. -/
def overflow : Response := ⟨101, "", []⟩

end Response

namespace Request

/-! ## Arguments -/

/-- The number of rounds an argument gives, an unsigned 32-bit number. -/
def rounds? (s : String) : Option Nat := do
  let n ← Text.readInt64? s.toList
  if 0 ≤ n ∧ n ≤ maxCount then some n.toNat else none

/-- The argument looks like an option; a single dash is a path. -/
def isOption (s : String) : Bool :=
  s != "-" && s.toList.head? == some '-'

/-- The text behind the equals sign of an argument that gives the rounds. -/
def attached? (s : String) : Option String :=
  let mark := "--rounds=".toList
  if mark.isPrefixOf s.toList then some (String.ofList (s.toList.drop mark.length)) else none

/-- Collect the path and the rounds of a match, each at most once. -/
def runArguments (path : Option String) (rounds : Option Nat) : List String → Request
  | [] => (path.map (run · rounds)).getD misuse
  | "--" :: rest =>
    match path, rest with
    | none, [path] => if path = "" then misuse else run path rounds
    | some path, [] => run path rounds
    | _, _ => misuse
  | "--rounds" :: given :: rest =>
    match rounds, isOption given, rounds? given with
    | none, false, some n => runArguments path (some n) rest
    | _, _, _ => misuse
  | argument :: rest =>
    match attached? argument with
    | some given =>
      match rounds, rounds? given with
      | none, some n => runArguments path (some n) rest
      | _, _ => misuse
    | none =>
      match path with
      | none =>
        if isOption argument || argument = "" then misuse
        else runArguments (some argument) rounds rest
      | some _ => misuse

/-- Collect the path of a script. -/
def checkArguments : List String → Request
  | [path] => if isOption path || path = "" then misuse else check path
  | ["--", path] => if path = "" then misuse else check path
  | [path, "--"] => if isOption path || path = "" then misuse else check path
  | _ => misuse

/-- The argument asks for the version; what follows the short option in the same
argument is not looked at. -/
def asksVersion (s : String) : Bool :=
  s == "--version" || ['-', 'V'].isPrefixOf s.toList

/-- What the arguments ask for. -/
def parse : List String → Request
  | [] => misuse
  | "run" :: rest => runArguments none none rest
  | "check" :: rest => checkArguments rest
  | option :: _ => if asksVersion option then version else misuse

/-! ## Files -/

/-- The place of a file that is named as seen from another file. -/
def beside (path name : String) : String :=
  if name.toList.head? = some '/' then name
  else
    let folder := ((path.toList.reverse.dropWhile (· == '/')).dropWhile (· != '/')).reverse
    String.ofList folder ++ name

/-- The files that are needed to fulfil the request, given the texts of files
that are known. -/
def needs (known : String → Option String) : Request → List String
  | run path _ =>
    path :: (((known path).bind MatchFile.parse?).map
      fun file => file.pieces.map fun piece => beside path piece.script).getD []
  | check path => [path]
  | _ => []

/-! ## Answers -/

/-- The script that is named as seen from a match file. -/
def loadScript (read : String → Option String) (path name : String) : Except String String :=
  match read (beside path name) with
  | some script => .ok script
  | none => .error ("failed to read script at " ++ beside path name)

/-- The first piece of some events that was not put on the board. -/
def firstRejected? (events : List Event) : Option (PieceId × SpawnError) :=
  events.findSome? fun event =>
    match event with
    | .pieceSpawnRejected piece reason => some (piece, reason)
    | _ => none

/-- Play the match of a setup and print its summary. -/
def playSetup (setup : Setup) (rounds : Nat) : Checked Response := do
  let (start, transcript) ← Match.ofSetup setup
  match firstRejected? transcript.events with
  | some (piece, reason) =>
    return .failure ["piece `" ++ piece.name ++ "` could not be placed: " ++ reason.message]
  | none =>
    let (score, final, _) ← start.play rounds
    return .success (summary final.world score)

/-- Play the match of a match file. -/
def respondRun (read : String → Option String) (path : String) (rounds : Option Nat) : Response :=
  match read path with
  | none => .failure ["failed to read match file at " ++ path]
  | some contents =>
    match MatchFile.parse? contents with
    | none => .failure ["failed to parse match file at " ++ path]
    | some file =>
      match file.resolve (loadScript read path) with
      | .error problem => .failure problem.messages
      | .ok setup =>
        match playSetup setup (rounds.getD file.maxRounds) with
        | .ok response => response
        | .error _ => .overflow

/-- The piece in whose name a script is checked. -/
def checker : PieceId :=
  ⟨"check", by decide, by decide, by decide⟩

/-- Check a script with an interpreter that has not been used. -/
def respondCheck (read : String → Option String) (path : String) : Response :=
  match read path with
  | none => .failure ["failed to read script at " ++ path]
  | some script =>
    match (Script.Interpreter.fresh checker .default).check script with
    | .error error => .failure [path ++ " is not a valid script", error.message]
    | .ok tokens => .success (path ++ ": ok (" ++ toString tokens ++ " tokens)\n")

/-- The answer to a request, given the texts of the files. -/
def respond (read : String → Option String) : Request → Response
  | run path rounds => respondRun read path rounds
  | check path => respondCheck read path
  | version => .success "hexbots 0.1.0\n"
  | misuse => .misuse

end Request

end HexArena
