import Chip8.Opcode
import Chip8.Text.Hex

/-!
# Instructions

An instruction is an opcode with operands of its layout, so each instruction has one word. This
module encodes and decodes instructions, builds them from numbers, and writes them in assembly.
-/

namespace Chip8

structure Instruction where
  opcode : Opcode
  operands : opcode.layout.Operands
  deriving DecidableEq

namespace Instruction

/-! ## Words -/

def encode (instruction : Instruction) : Word :=
  instruction.opcode.base + UInt16.ofNat (instruction.opcode.layout.pack instruction.operands)

def unpack (opcode : Opcode) (word : Word) : Instruction :=
  ⟨opcode, opcode.layout.unpack word⟩

def ofWord? (word : Word) : Option Instruction :=
  (Opcode.ofWord? word).map (unpack · word)

/-- The instruction of a number; only numbers of sixteen bits have one. -/
def ofNumber? (number : Int) : Option Instruction :=
  if 0 ≤ number ∧ number < 65536 then ofWord? (UInt16.ofNat number.toNat) else none

example : ofWord? 0xD125 = some ⟨.draw, (1, 2, 5)⟩ := rfl

example : encode ⟨.draw, (1, 2, 5)⟩ = 0xD125 := rfl

example : ofWord? 0x9121 = none := rfl

/-! ## Numbers -/

def fields (instruction : Instruction) : Fields :=
  instruction.opcode.layout.toFields instruction.operands

inductive OperandError
  | unused (opcode : Opcode) (field : Field) (value : Int)
  | outOfRange (opcode : Opcode) (field : Field) (value : Int)
  deriving DecidableEq, Repr

def OperandError.message : OperandError → String
  | .unused opcode field value =>
      opcode.name ++ " takes no " ++ field.name ++ " operand, got " ++ toString value
  | .outOfRange opcode field value =>
      field.name ++ " operand of " ++ opcode.name ++ " out of range: " ++ toString value

def fieldError? (opcode : Opcode) (field : Field) (value : Int) : Option OperandError :=
  if field ∉ opcode.layout.fields ∧ value ≠ 0 then
    some (.unused opcode field value)
  else if 0 ≤ value ∧ value < field.limit then
    none
  else
    some (.outOfRange opcode field value)

/-- Build an instruction from numbers. The first field with an error decides. -/
def ofFields (opcode : Opcode) (fields : Fields) : Except OperandError Instruction :=
  match Field.all.findSome? fun field => fieldError? opcode field (fields.get field) with
  | some error => .error error
  | none => .ok ⟨opcode, opcode.layout.ofFields fields⟩

example : ofFields .draw { x := 1, y := 2, n := 5 } = .ok ⟨.draw, (1, 2, 5)⟩ := rfl

example : ofFields .ret { x := -1, n := 1 } = .error (.unused .ret .x (-1)) := rfl

example : ofFields .setByte { kk := 256 } = .error (.outOfRange .setByte .kk 256) := rfl

/-! ## Assembly -/

def operandText (fields : Fields) : Operand → String
  | .vx => "V" ++ Text.Hex.numeral 1 fields.x
  | .vy => "V" ++ Text.Hex.numeral 1 fields.y
  | .byte => "0x" ++ Text.Hex.numeral 2 fields.kk
  | .address => "0x" ++ Text.Hex.numeral 3 fields.addr
  | .height => toString fields.n
  | .symbol name => name

def assemble (mnemonic : String) : List String → String
  | [] => mnemonic
  | first :: rest => rest.foldl (fun text operand => text ++ ", " ++ operand)
      (mnemonic ++ " " ++ first)

def text (instruction : Instruction) : String :=
  assemble instruction.opcode.mnemonic
    (instruction.opcode.operands.map (operandText instruction.fields))

end Instruction

end Chip8
