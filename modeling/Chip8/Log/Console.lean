import Chip8.Log.Message

/-!
# Consoles

A console lets messages of its level and above through, as lines with a time stamp, and writes
lines in its own style. Filtering and writing are apart: `Console.log` gives lines, and
`Console.render` words them.
-/

namespace Chip8.Log

structure Line where
  elapsed : Time
  message : Message
  deriving DecidableEq

structure Console where
  name : String
  threshold : Level := .info
  colored : Bool := false
  stamped : Bool := true
  start : Time := 0
  deriving DecidableEq

namespace Console

def enabled (console : Console) (level : Level) : Bool :=
  console.threshold.weight ≤ level.weight

def log (console : Console) (now : Time) (message : Message) : List Line :=
  if console.enabled message.level then [{ elapsed := now - console.start, message }] else []

def alignRight (width : Nat) (text : String) : String :=
  String.ofList (text.toList.leftpad width ' ')

def tag (console : Console) (level : Level) : String :=
  let tag := "[" ++ alignRight 5 level.name ++ "]"
  if console.colored then level.color ++ tag ++ Level.colorEnd else tag

def stamp (console : Console) (elapsed : Time) : String :=
  if console.stamped then "[" ++ alignRight 8 (Text.Seconds.text elapsed) ++ "s]" else ""

def render (console : Console) (line : Line) : String :=
  console.stamp line.elapsed ++ console.tag line.message.level ++ "[" ++ console.name ++ "] " ++
    line.message.text ++ "\n"

end Console

end Chip8.Log
