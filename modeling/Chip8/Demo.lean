import Chip8.Listing
import Chip8.Session

/-!
# A demonstration

A program that draws the sixteen hexadecimal digits in two rows and then spins, and the output of a
run of it: the listing of the program, what the tracer reports, and the screen at the end.
-/

namespace Chip8.Demo

/-- Register 0 holds the digit, registers 1 and 2 the place on the screen. -/
def program : List Instruction :=
  [⟨.setByte, (0, 0)⟩, -- 0x200
    ⟨.setByte, (1, 1)⟩,
    ⟨.setByte, (2, 1)⟩,
    ⟨.pointFont, (0 : Register)⟩, -- 0x206, the loop
    ⟨.draw, (1, 2, 5)⟩,
    ⟨.addByte, (0, 1)⟩,
    ⟨.addByte, (1, 8)⟩,
    ⟨.skipEqByte, (0, 8)⟩, -- after eight digits, a new row
    ⟨.jump, (0x216 : Address)⟩,
    ⟨.setByte, (1, 1)⟩,
    ⟨.addByte, (2, 8)⟩,
    ⟨.skipEqByte, (0, 16)⟩, -- 0x216
    ⟨.jump, (0x206 : Address)⟩,
    ⟨.jump, (0x21A : Address)⟩] -- 0x21A, spin

def image : Image := { data := Image.assemble program, variant := .standard }

example : Image.ofInstructions program .standard = .ok image := rfl

def stepCount : Int := 200

def session (tracing colored : Bool) (start : Time) : Session :=
  .ofMachine (.standard 0) <| some
    { console :=
        { name := "Trace"
          threshold := if tracing then .debug else .info
          colored
          start } }

def written (reply : Session.Reply) : String := String.join reply.printed

def listing : String := Listing.text image.data image.base ++ "\n"

def screen (session : Session) : String :=
  String.join (session.machine.display.rows.map (· ++ "\n"))

def transcript (tracing : Bool) : String :=
  let loaded := (session tracing false 0).loadImage 0 image
  let finished := loaded.session.run 0 stepCount
  listing ++ written loaded ++ written finished ++ screen finished.session

def asksForTrace (arguments : List String) : Bool := "--trace" ∈ arguments

end Chip8.Demo
