/-!
# Sprites

A sprite is a list of rows, each a byte whose most significant bit is the leftmost pixel.
-/

namespace Chip8.Sprite

def rowWidth : Nat := 8

def heightLimit : Nat := 15

def isSet (row : UInt8) (column : Nat) : Bool := row.toNat.testBit (7 - column)

def columns (row : UInt8) : List Nat := (List.range rowWidth).filter (isSet row)

def offsetsFrom (first : Nat) : List UInt8 → List (Nat × Nat)
  | [] => []
  | row :: rest => (columns row).map (·, first) ++ offsetsFrom (first + 1) rest

def offsets (rows : List UInt8) : List (Nat × Nat) := offsetsFrom 0 rows

example : offsets [0x81, 0x40] = [(0, 0), (7, 0), (1, 1)] := rfl

end Chip8.Sprite
