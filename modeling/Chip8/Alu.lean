/-!
# Arithmetic on two registers

The nine operations of the `8xyN` family. Each maps two bytes to a result and, for the five
arithmetic ones, a flag; without a flag the flag register keeps its value.
-/

namespace Chip8

inductive Alu
  | copy
  | or
  | and
  | xor
  | add
  | sub
  | shr
  | subn
  | shl
  deriving DecidableEq, Repr

namespace Alu

def code : Alu → Nat
  | .copy => 0x0
  | .or => 0x1
  | .and => 0x2
  | .xor => 0x3
  | .add => 0x4
  | .sub => 0x5
  | .shr => 0x6
  | .subn => 0x7
  | .shl => 0xE

def ofCode? : Nat → Option Alu
  | 0x0 => some .copy
  | 0x1 => some .or
  | 0x2 => some .and
  | 0x3 => some .xor
  | 0x4 => some .add
  | 0x5 => some .sub
  | 0x6 => some .shr
  | 0x7 => some .subn
  | 0xE => some .shl
  | _ => none

def isShift : Alu → Bool
  | .shr | .shl => true
  | _ => false

def flag (condition : Bool) : UInt8 := if condition then 1 else 0

/-- The result and the flag of an operation on two bytes. Results wrap at 256; the flag is the
carry of a sum, the absence of a borrow in a difference, and the bit that a shift drops. -/
def apply : Alu → UInt8 → UInt8 → UInt8 × Option UInt8
  | .copy, _, b => (b, none)
  | .or, a, b => (a ||| b, none)
  | .and, a, b => (a &&& b, none)
  | .xor, a, b => (a ^^^ b, none)
  | .add, a, b => (a + b, some (flag (a.toNat + b.toNat > 255)))
  | .sub, a, b => (a - b, some (flag (a ≥ b)))
  | .shr, a, _ => (a >>> 1, some (a &&& 1))
  | .subn, a, b => (b - a, some (flag (b ≥ a)))
  | .shl, a, _ => (a <<< 1, some (a >>> 7))

example : Alu.add.apply 200 100 = (44, some 1) := rfl

example : Alu.sub.apply 5 5 = (0, some 1) := rfl

example : Alu.subn.apply 5 4 = (255, some 0) := rfl

example : Alu.shl.apply 0x81 0 = (2, some 1) := rfl

end Alu

end Chip8
