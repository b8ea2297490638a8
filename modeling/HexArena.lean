import HexArena.File.Saved
import HexArena.Main
import HexArena.Proofs.Match.Fault
import HexArena.Proofs.Script.Correctness
import HexArena.Proofs.Script.Mail
import HexArena.Proofs.World.Pieces
import HexArena.Proofs.Match.Course
import HexArena.Proofs.Match.Legal
import HexArena.Proofs.Hex.Reach
import HexArena.Proofs.Script.Headroom
import HexArena.Proofs.Match.Overflow
import HexArena.Proofs.World.Tally
import HexArena.Proofs.World.Account
import HexArena.Proofs.Match.Chronicle
import HexArena.Proofs.Mail.Sorting
import HexArena.Proofs.Match.Record
import HexArena.Proofs.Match.Protocol
import HexArena.Proofs.Match.Verdict
import HexArena.Proofs.Match.Alike
import HexArena.Proofs.Script.Limits
import HexArena.Proofs.Script.Spelling
import HexArena.Proofs.Script.Respelled
import HexArena.Proofs.World.Death
import HexArena.Proofs.Hex.Path
import HexArena.Proofs.Script.Derivation
import HexArena.Proofs.World.Sound
import HexArena.Proofs.Match.Scripts
import HexArena.Proofs.Script.Sight
import HexArena.Proofs.Script.Walk
import HexArena.Proofs.Script.Intact
import HexArena.Proofs.Script.Attempts
import HexArena.Proofs.Match.Hits
import HexArena.Proofs.Script.Rendering
import HexArena.Proofs.Script.Predefined
import HexArena.Proofs.Script.Expansion
import HexArena.Proofs.World.Spawning
import HexArena.Proofs.Match.Instalments
import HexArena.Proofs.Mail.Wire
import HexArena.Proofs.Hex.Range
import HexArena.Proofs.Hex.Straight
import HexArena.Proofs.Hex.Rotation
import HexArena.Proofs.Script.Conversion
import HexArena.Proofs.Script.Heading
import HexArena.Proofs.Script.History
