import Chip8.Demo

/-!
# The command line

Runs the demonstration. With `--trace`, every instruction is reported.
-/

namespace Chip8

def currentTime : IO Time := do
  return Int.ofNat ((← IO.monoMsNow) / 125)

def runDemo (tracing : Bool) : IO Unit := do
  let start ← currentTime
  let terminal ← (← IO.getStdout).isTty
  IO.print Demo.listing
  let session := Demo.session tracing terminal start
  let loaded := session.loadImage (← currentTime) Demo.image
  IO.print (Demo.written loaded)
  let finished := loaded.session.run (← currentTime) Demo.stepCount
  IO.print (Demo.written finished)
  IO.print (Demo.screen finished.session)

end Chip8

def main (arguments : List String) : IO Unit :=
  Chip8.runDemo (Chip8.Demo.asksForTrace arguments)
