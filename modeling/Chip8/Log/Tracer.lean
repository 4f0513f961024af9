import Chip8.Fault
import Chip8.Log.Console

/-!
# Tracers

A tracer reports a run on a console and counts the instructions that it was told of.
-/

namespace Chip8.Log

structure Tracer where
  console : Console
  count : Nat := 0
  deriving DecidableEq

namespace Tracer

def tracing (tracer : Tracer) : Bool := tracer.console.enabled .debug

def loaded (tracer : Tracer) (now : Time) (size base : Int) (variant : String) : List Line :=
  tracer.console.log now (.loaded size base variant)

def executed (tracer : Tracer) (now : Time) (pc word : Int) (instruction : Option Instruction) :
    Tracer × List Line :=
  ({ tracer with count := tracer.count + 1 },
    tracer.console.log now (.executed pc word instruction))

def halted (tracer : Tracer) (now : Time) (pc : Int) (reason : String) : List Line :=
  tracer.console.log now (.halted pc tracer.count reason)

def finished (tracer : Tracer) (now : Time) (steps : Int) : List Line :=
  tracer.console.log now (.finished steps tracer.count (now - tracer.console.start))

end Tracer

end Chip8.Log
