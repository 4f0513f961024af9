import Chip8.Instruction
import Chip8.Log.Level
import Chip8.Text.Seconds

/-!
# Log messages

What can be reported about a run. A message is kept as data; `Message.text` words it.
-/

namespace Chip8.Log

inductive Message
  | note (level : Level) (text : String)
  | loaded (size base : Int) (variant : String)
  | executed (pc word : Int) (instruction : Option Instruction)
  | halted (pc : Int) (count : Nat) (reason : String)
  | finished (steps : Int) (count : Nat) (elapsed : Time)
  deriving DecidableEq

namespace Message

def level : Message → Level
  | .note level _ => level
  | .loaded .. => .info
  | .executed .. => .debug
  | .halted .. => .error
  | .finished .. => .info

def text : Message → String
  | .note _ text => text
  | .loaded size base variant =>
      "Loaded " ++ toString size ++ " byte ROM (" ++ variant ++ ") at 0x" ++
        Text.Hex.numeral 3 base
  | .executed pc word instruction =>
      "0x" ++ Text.Hex.numeral 3 pc ++ ": " ++ Text.Hex.numeral 4 word ++ "  " ++
        (instruction.map Instruction.text).getD "?"
  | .halted pc count reason =>
      "Halted at 0x" ++ Text.Hex.numeral 3 pc ++ " after " ++ toString count ++
        " instructions: " ++ reason
  | .finished steps count elapsed =>
      "Executed " ++ toString steps ++ " steps (" ++ toString count ++ " total) in " ++
        Text.Seconds.text elapsed ++ "s"

end Message

end Chip8.Log
