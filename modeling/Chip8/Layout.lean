import Chip8.Word

/-!
# Operand layouts

A layout says which fields of a word are operands. It fixes the remaining bits of the word, the
type of the operands, and how operands are taken out of a word and put back.
-/

namespace Chip8

/-! ## Fields by number -/

inductive Field
  | x
  | y
  | kk
  | addr
  | n
  deriving DecidableEq, Repr

namespace Field

def all : List Field := [.x, .y, .kk, .addr, .n]

def name : Field → String
  | .x => "x"
  | .y => "y"
  | .kk => "kk"
  | .addr => "addr"
  | .n => "n"

def limit : Field → Nat
  | .x | .y | .n => 16
  | .kk => 256
  | .addr => 4096

end Field

/-- A number for every field, of any size; a field without an operand is zero. -/
structure Fields where
  x : Int := 0
  y : Int := 0
  kk : Int := 0
  addr : Int := 0
  n : Int := 0
  deriving DecidableEq, Repr

def Fields.get (fields : Fields) : Field → Int
  | .x => fields.x
  | .y => fields.y
  | .kk => fields.kk
  | .addr => fields.addr
  | .n => fields.n

/-! ## Layouts -/

inductive Layout
  | literal
  | address
  | registerByte
  | registers
  | sprite
  | register
  deriving DecidableEq, Repr

namespace Layout

def fixedBits : Layout → Word
  | .literal => 0xFFFF
  | .register => 0xF0FF
  | .registers => 0xF00F
  | .address | .registerByte | .sprite => 0xF000

def fields : Layout → List Field
  | .literal => []
  | .address => [.addr]
  | .registerByte => [.x, .kk]
  | .registers => [.x, .y]
  | .sprite => [.x, .y, .n]
  | .register => [.x]

@[reducible] def Operands : Layout → Type
  | .literal => Unit
  | .address => Address
  | .registerByte => Register × UInt8
  | .registers => Register × Register
  | .sprite => Register × Register × Nibble
  | .register => Register

instance (layout : Layout) : DecidableEq layout.Operands := by
  cases layout <;> infer_instance

def unpack : (layout : Layout) → Word → layout.Operands
  | .literal, _ => ()
  | .address, word => word.addr
  | .registerByte, word => (word.x, word.kk)
  | .registers, word => (word.x, word.y)
  | .sprite, word => (word.x, word.y, word.n)
  | .register, word => word.x

def pack : (layout : Layout) → layout.Operands → Nat
  | .literal, _ => 0
  | .address, target => target.val
  | .registerByte, (x, kk) => x.val * 256 + kk.toNat
  | .registers, (x, y) => x.val * 256 + y.val * 16
  | .sprite, (x, y, n) => x.val * 256 + y.val * 16 + n.val
  | .register, x => x.val * 256

def toFields : (layout : Layout) → layout.Operands → Fields
  | .literal, _ => { }
  | .address, target => { addr := target.val }
  | .registerByte, (x, kk) => { x := x.val, kk := kk.toNat }
  | .registers, (x, y) => { x := x.val, y := y.val }
  | .sprite, (x, y, n) => { x := x.val, y := y.val, n := n.val }
  | .register, x => { x := x.val }

/-- Read the operands from numbers, each taken modulo the limit of its field. -/
def ofFields : (layout : Layout) → Fields → layout.Operands
  | .literal, _ => ()
  | .address, fields => .ofNat 4096 fields.addr.toNat
  | .registerByte, fields => (.ofNat 16 fields.x.toNat, .ofNat fields.kk.toNat)
  | .registers, fields => (.ofNat 16 fields.x.toNat, .ofNat 16 fields.y.toNat)
  | .sprite, fields =>
      (.ofNat 16 fields.x.toNat, .ofNat 16 fields.y.toNat, .ofNat 16 fields.n.toNat)
  | .register, fields => .ofNat 16 fields.x.toNat

@[simp] theorem ofFields_toFields (layout : Layout) (operands : layout.Operands) :
    layout.ofFields (layout.toFields operands) = operands := by
  cases layout <;> simp [ofFields, toFields]

example : Layout.sprite.unpack 0xD125 = (1, 2, 5) := rfl

example : Layout.sprite.pack (1, 2, 5) = 0x125 := rfl

end Layout

end Chip8
