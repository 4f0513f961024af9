import Chip8.Machine

/-!
# Executing instructions

The effect of each instruction on a machine whose program counter already points past it. Only
subroutine calls, returns, and accesses to memory can fail; an instruction that fails has no
effect.
-/

namespace Chip8

namespace Machine

/-! ## Control flow -/

def jump (machine : Machine) (target : Address) : Machine :=
  { machine with pc := target.toWord }

def skipIf (machine : Machine) (condition : Bool) : Machine :=
  if condition then { machine with pc := machine.pc + 2 } else machine

def offsetBy (address : Nat) (offset : UInt8) : Word :=
  UInt16.ofNat ((address + offset.toNat) % 4096)

def lastDigit (byte : UInt8) : Fin 16 := .ofNat 16 byte.toNat

/-! ## Registers and memory -/

def setRegister (machine : Machine) (x : Register) (value : UInt8) : Machine :=
  { machine with v := machine.v.put x value }

def source (machine : Machine) (operation : Alu) (x y : Register) : UInt8 :=
  if operation.isShift && machine.shiftUsesY then machine.v[y] else machine.v[x]

/-- Combine two registers. The flag is written after the result, so it wins if both go to the same
register. -/
def combine (machine : Machine) (operation : Alu) (x y : Register) : Machine :=
  let (result, flag) := operation.apply (machine.source operation x y) machine.v[y]
  let v := machine.v.put x result
  { machine with v := match flag with
      | some flag => v.put Registers.flagRegister flag
      | none => v }

def randomize (machine : Machine) (x : Register) (mask : UInt8) : Machine :=
  { machine with
    v := machine.v.put x (machine.random.byte &&& mask)
    random := machine.random.next }

/-- Draw a sprite from memory and set the flag register to the collision. Coordinates are read
before the flag is written. -/
def drawSprite (machine : Machine) (x y : Register) (height : Nibble) : Except Fault Machine :=
  (machine.memory.read machine.index.toNat height.val).map fun rows =>
    let (display, collided) := machine.display.draw machine.v[x].toNat machine.v[y].toNat rows
    { machine with display, v := machine.v.put Registers.flagRegister (Alu.flag collided) }

/-- Wait for a key. Without a key the program counter goes back onto this instruction; with one,
its number goes to the register and the wait is over. -/
def waitForKey (machine : Machine) (x : Register) : Machine :=
  match machine.keypad.lowest? with
  | none => { machine with pc := machine.pc - 2, waiting := some x }
  | some key =>
      { machine with v := machine.v.put x (UInt8.ofNat key.val), waiting := none }

def decimalDigits (value : UInt8) : List UInt8 := [value / 100, value / 10 % 10, value % 10]

def store (machine : Machine) (data : List UInt8) : Except Fault Machine :=
  (machine.memory.write machine.index.toNat data).map fun memory => { machine with memory }

def loadRegisters (machine : Machine) (x : Register) : Except Fault Machine :=
  (machine.memory.read machine.index.toNat (x.val + 1)).map fun values =>
    { machine with v := machine.v.replaceFirst values }

/-! ## All instructions -/

def execute (machine : Machine) : Instruction → Except Fault Machine
  | ⟨.clearScreen, _⟩ => .ok { machine with display := machine.display.clear }
  | ⟨.ret, _⟩ => machine.stack.pop.map fun (address, stack) =>
      { machine with stack, pc := address }
  | ⟨.sys, _⟩ => .ok machine
  | ⟨.jump, target⟩ => .ok (machine.jump target)
  | ⟨.call, target⟩ => (machine.stack.push machine.pc.toNat).map fun stack =>
      { machine with stack }.jump target
  | ⟨.skipEqByte, (x, byte)⟩ => .ok (machine.skipIf (machine.v[x] == byte))
  | ⟨.skipNeByte, (x, byte)⟩ => .ok (machine.skipIf (machine.v[x] != byte))
  | ⟨.skipEq, (x, y)⟩ => .ok (machine.skipIf (machine.v[x] == machine.v[y]))
  | ⟨.setByte, (x, byte)⟩ => .ok (machine.setRegister x byte)
  | ⟨.addByte, (x, byte)⟩ => .ok (machine.setRegister x (machine.v[x] + byte))
  | ⟨.alu operation, (x, y)⟩ => .ok (machine.combine operation x y)
  | ⟨.skipNe, (x, y)⟩ => .ok (machine.skipIf (machine.v[x] != machine.v[y]))
  | ⟨.setIndex, target⟩ => .ok { machine with index := target.toWord }
  | ⟨.jumpOffset, target⟩ =>
      .ok { machine with pc := offsetBy target.val machine.v[(0 : Register)] }
  | ⟨.random, (x, mask)⟩ => .ok (machine.randomize x mask)
  | ⟨.draw, (x, y, height)⟩ => machine.drawSprite x y height
  | ⟨.skipKey, x⟩ =>
      .ok (machine.skipIf (machine.keypad.isDown (lastDigit machine.v[(x : Register)])))
  | ⟨.skipNoKey, x⟩ =>
      .ok (machine.skipIf (!machine.keypad.isDown (lastDigit machine.v[(x : Register)])))
  | ⟨.readDelay, x⟩ => .ok (machine.setRegister x machine.delay)
  | ⟨.waitKey, x⟩ => .ok (machine.waitForKey x)
  | ⟨.setDelay, x⟩ => .ok { machine with delay := machine.v[(x : Register)] }
  | ⟨.setSound, x⟩ => .ok { machine with sound := machine.v[(x : Register)] }
  | ⟨.addIndex, x⟩ =>
      .ok { machine with index := offsetBy machine.index.toNat machine.v[(x : Register)] }
  | ⟨.pointFont, x⟩ =>
      .ok { machine with index := .ofNat (Font.address (lastDigit machine.v[(x : Register)])) }
  | ⟨.storeDecimal, x⟩ => machine.store (decimalDigits machine.v[(x : Register)])
  | ⟨.storeRegisters, x⟩ => machine.store (machine.v.upTo x)
  | ⟨.loadRegisters, x⟩ => machine.loadRegisters x

end Machine

def Instruction.decode (number : Int) : Except Fault Instruction :=
  match ofNumber? number with
  | some instruction => .ok instruction
  | none => .error (.invalidOpcode number)

def Machine.executeNumber (machine : Machine) (number : Int) : Except Fault Machine :=
  match Instruction.decode number with
  | .error fault => .error fault
  | .ok instruction => machine.execute instruction

end Chip8
