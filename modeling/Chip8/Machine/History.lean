import Chip8.Machine.Step

/-!
# Histories of a machine

The events in the life of a machine, and the machines that are reachable by them. An event that
fails leaves the machine as it was.
-/

namespace Chip8.Machine

inductive Event
  | step
  /-- An instruction is executed that memory need not hold. -/
  | execute (instruction : Instruction)
  | tick
  | setKeys (bitmap : Int)
  | load (image : Image)
  deriving DecidableEq

def Event.isForced : Event → Bool
  | .execute _ => true
  | _ => false

def respond (machine : Machine) : Event → Except Fault Machine
  | .step => machine.step
  | .execute instruction => machine.execute instruction
  | .tick => .ok machine.tick
  | .setKeys bitmap => .ok (machine.setKeys bitmap)
  | .load image => machine.load image

def after (machine : Machine) (event : Event) : Machine :=
  match machine.respond event with
  | .ok next => next
  | .error _ => machine

def afterAll (machine : Machine) (events : List Event) : Machine :=
  events.foldl after machine

def respondAll (machine : Machine) : List Event → Except Fault Machine
  | [] => .ok machine
  | event :: rest =>
      match machine.respond event with
      | .ok next => next.respondAll rest
      | .error fault => .error fault

end Chip8.Machine
