import HexArena.CommandLine

/-!
# The program

Reads the files a request needs, prints the answer and exits.
-/

open HexArena

/-- Read those of some files that can be read. -/
def readFiles (paths : List String) : IO (List (String × String)) :=
  paths.filterMapM fun (path : String) => do
    try
      let text ← IO.FS.readFile path
      return some (path, text)
    catch _ => return none

/-- The lines of an error: its message, and then its causes. -/
def errorText : List String → String
  | [] => ""
  | message :: causes =>
    "Error: " ++ message ++ "\n" ++
      (if causes.isEmpty then ""
       else "\nCaused by:\n" ++ String.join (causes.map fun cause => "    " ++ cause ++ "\n"))

/-- Answer the request of the arguments. -/
def main (args : List String) : IO UInt32 := do
  let request := Request.parse args
  let first ← readFiles (request.needs fun _ => none)
  let files ← readFiles (request.needs fun path => first.lookup path)
  let response := request.respond fun path => files.lookup path
  IO.print response.output
  IO.eprint (errorText response.errors)
  return response.exit.toUInt32
