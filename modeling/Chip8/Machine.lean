import Chip8.CallStack
import Chip8.Display
import Chip8.Keypad
import Chip8.Memory
import Chip8.Random
import Chip8.Registers

/-!
# The machine

The whole state of a CHIP-8 machine, and what a host does to it from outside: it ticks the timers,
sets the keys and loads an image. Executing instructions is in `Chip8.Machine.Execute` and
`Chip8.Machine.Step`.
-/

namespace Chip8

structure Machine where
  memory : Memory
  pc : Word
  display : Display
  stack : CallStack
  delay : UInt8
  sound : UInt8
  keypad : Keypad
  v : Registers
  index : Word
  waiting : Option Register
  random : RandomKey
  /-- Whether shifts take their source from the second register. -/
  shiftUsesY : Bool

namespace Machine

def registerCount : Nat := 16

def keyCount : Nat := 16

def blocked (machine : Machine) : Bool := machine.waiting.isSome && !machine.keypad.anyDown

def countDown (timer : UInt8) : UInt8 := if timer = 0 then 0 else timer - 1

def tick (machine : Machine) : Machine :=
  { machine with delay := countDown machine.delay, sound := countDown machine.sound }

def soundActive (machine : Machine) : Bool := machine.sound > 0

def setKeys (machine : Machine) (bitmap : Int) : Machine :=
  { machine with keypad := .ofBitmap bitmap }

def load (machine : Machine) (image : Image) : Except Fault Machine :=
  (machine.memory.load image).map fun memory =>
    { machine with memory, pc := UInt16.ofNat image.base }

end Machine

end Chip8
