/-!
# The keypad

Sixteen keys, each up or down. A host sets all keys at once from the last sixteen bits of an
integer of any size, bit `k` for key `k`; a negative integer counts in two's complement.
-/

namespace Chip8

/-- Which keys are down, bit `k` for key `k`. -/
structure Keypad where
  bits : BitVec 16
  deriving DecidableEq, Repr

namespace Keypad

def released : Keypad := { bits := 0 }

def ofBitmap (bitmap : Int) : Keypad := { bits := BitVec.ofInt 16 bitmap }

def toNat (keypad : Keypad) : Nat := keypad.bits.toNat

def isDown (keypad : Keypad) (key : Fin 16) : Bool := keypad.bits.getLsbD key.val

def lowest? (keypad : Keypad) : Option (Fin 16) := (List.finRange 16).find? keypad.isDown

def anyDown (keypad : Keypad) : Bool := keypad.lowest?.isSome

example : (ofBitmap (-1)).toNat = 0xFFFF := rfl

example : (ofBitmap 0x10024).lowest? = some 2 := rfl

example : (ofBitmap 0x10000).anyDown = false := rfl

end Keypad

end Chip8
