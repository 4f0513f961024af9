import Chip8.Log.Tracer
import Chip8.Machine.Options
import Chip8.Machine.Step

/-!
# Sessions

A session is what a host works with: one machine, the image it runs, and perhaps a tracer. Loading
an image starts over with a machine as it was built. A call that fails changes nothing, except
that a run keeps the steps before the one that failed.
-/

namespace Chip8

structure Session where
  /-- The machine as it was built. -/
  fresh : Machine
  machine : Machine
  image : Option Image := none
  tracer : Option Log.Tracer := none

namespace Session

structure Reply where
  session : Session
  lines : List Log.Line := []
  /-- What the call returns: for a load, the address of the image. -/
  result : Option Nat := none
  fault : Option Fault := none

def Reply.printed (reply : Reply) : List String :=
  match reply.session.tracer with
  | some tracer => reply.lines.map tracer.console.render
  | none => []

def ofMachine (machine : Machine) (tracer : Option Log.Tracer) : Session :=
  { fresh := machine, machine, tracer }

def open? (options : Options) (tracer : Option Log.Tracer) : Except BuildError Session :=
  (Machine.build options).map fun machine => ofMachine machine tracer

def report (session : Session) (lines : Log.Tracer → List Log.Line) : List Log.Line :=
  match session.tracer with
  | some tracer => lines tracer
  | none => []

/-! ## Calls -/

def loadImage (session : Session) (now : Time) (image : Image) : Reply :=
  match session.fresh.load image with
  | .error fault => { session, fault := some fault }
  | .ok machine =>
      { session := { session with machine, image := some image }
        lines := session.report fun tracer =>
          tracer.loaded now image.size image.base image.variant.name
        result := some image.base }

def load (session : Session) (now : Time) (data : List UInt8) (variant : Option Variant) : Reply :=
  match Image.ofBytes data variant with
  | .error fault => { session, fault := some fault }
  | .ok image => session.loadImage now image

def lookUp (session : Session) : Except Fault (Word × Instruction) :=
  match session.machine.memory.fetchWord session.machine.pc.toNat with
  | .error fault => .error fault
  | .ok word => (Instruction.decode word.toNat).map fun instruction => (word, instruction)

/-- Tell a tracer that traces of the instruction at the program counter, which is looked up anew. -/
def trace (session : Session) (now : Time) : Except Fault (Option Log.Tracer × List Log.Line) :=
  match session.tracer with
  | none => .ok (none, [])
  | some tracer =>
      if tracer.tracing && !session.machine.blocked then
        session.lookUp.map fun (word, instruction) =>
          let (tracer, lines) := tracer.executed now session.machine.pc.toNat word.toNat
            (some instruction)
          (some tracer, lines)
      else
        .ok (some tracer, [])

/-- Take a step. It counts once it has been reported: a report that failed would undo it. -/
def step (session : Session) (now : Time) : Reply :=
  match session.machine.step with
  | .error fault =>
      { session
        lines := session.report fun tracer =>
          tracer.halted now session.machine.pc.toNat fault.message
        fault := some fault }
  | .ok machine =>
      match session.trace now with
      | .error fault => { session, fault := some fault }
      | .ok (tracer, lines) => { session := { session with machine, tracer }, lines }

def steps (session : Session) (now : Time) : Nat → Reply
  | 0 => { session }
  | count + 1 =>
      let first := session.step now
      match first.fault with
      | some _ => first
      | none =>
          let rest := first.session.steps now count
          { rest with lines := first.lines ++ rest.lines }

/-- Take a number of steps, none if it is negative, and report the end unless one fails. -/
def run (session : Session) (now : Time) (count : Int) : Reply :=
  let reply := session.steps now count.toNat
  match reply.fault with
  | some _ => reply
  | none =>
      { reply with
        lines := reply.lines ++ reply.session.report fun tracer => tracer.finished now count }

def tick (session : Session) : Reply :=
  { session := { session with machine := session.machine.tick } }

def setKeys (session : Session) (bitmap : Int) : Reply :=
  { session := { session with machine := session.machine.setKeys bitmap } }

/-! ## Histories -/

inductive Call
  | load (data : List UInt8) (variant : Option Variant)
  | loadImage (image : Image)
  | step
  | run (count : Int)
  | tick
  | setKeys (bitmap : Int)
  deriving DecidableEq

def call (session : Session) (now : Time) : Call → Reply
  | .load data variant => session.load now data variant
  | .loadImage image => session.loadImage now image
  | .step => session.step now
  | .run count => session.run now count
  | .tick => session.tick
  | .setKeys bitmap => session.setKeys bitmap

end Session

end Chip8
