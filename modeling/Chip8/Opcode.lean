import Chip8.Alu
import Chip8.Layout

/-!
# Opcodes

The opcode forms of the instruction set: the fixed bits of each, its operand layout, its name, and
how it is written in assembly. `Opcode.ofWord?` finds the form of a word.
-/

namespace Chip8

inductive Opcode
  | clearScreen
  | ret
  | sys
  | jump
  | call
  | skipEqByte
  | skipNeByte
  | skipEq
  | setByte
  | addByte
  | alu (operation : Alu)
  | skipNe
  | setIndex
  | jumpOffset
  | random
  | draw
  | skipKey
  | skipNoKey
  | readDelay
  | waitKey
  | setDelay
  | setSound
  | addIndex
  | pointFont
  | storeDecimal
  | storeRegisters
  | loadRegisters
  deriving DecidableEq, Repr

inductive Operand
  | vx
  | vy
  | byte
  | address
  | height
  | symbol (name : String)
  deriving DecidableEq, Repr

namespace Opcode

def all : List Opcode :=
  [.clearScreen, .ret, .sys, .jump, .call, .skipEqByte, .skipNeByte, .skipEq, .setByte, .addByte,
    .alu .copy, .alu .or, .alu .and, .alu .xor, .alu .add, .alu .sub, .alu .shr, .alu .subn,
    .alu .shl, .skipNe, .setIndex, .jumpOffset, .random, .draw, .skipKey, .skipNoKey, .readDelay,
    .waitKey, .setDelay, .setSound, .addIndex, .pointFont, .storeDecimal, .storeRegisters,
    .loadRegisters]

theorem mem_all (opcode : Opcode) : opcode ∈ all := by
  cases opcode with
  | alu operation => cases operation <;> decide
  | _ => decide

def name : Opcode → String
  | .clearScreen => "CLS"
  | .ret => "RET"
  | .sys => "SYS"
  | .jump => "JP"
  | .call => "CALL"
  | .skipEqByte => "SE_VX_BYTE"
  | .skipNeByte => "SNE_VX_BYTE"
  | .skipEq => "SE_VX_VY"
  | .setByte => "LD_VX_BYTE"
  | .addByte => "ADD_VX_BYTE"
  | .alu .copy => "LD_VX_VY"
  | .alu .or => "OR"
  | .alu .and => "AND"
  | .alu .xor => "XOR"
  | .alu .add => "ADD_VX_VY"
  | .alu .sub => "SUB"
  | .alu .shr => "SHR"
  | .alu .subn => "SUBN"
  | .alu .shl => "SHL"
  | .skipNe => "SNE_VX_VY"
  | .setIndex => "LD_I_ADDR"
  | .jumpOffset => "JP_V0_ADDR"
  | .random => "RND"
  | .draw => "DRW"
  | .skipKey => "SKP"
  | .skipNoKey => "SKNP"
  | .readDelay => "LD_VX_DT"
  | .waitKey => "LD_VX_K"
  | .setDelay => "LD_DT_VX"
  | .setSound => "LD_ST_VX"
  | .addIndex => "ADD_I_VX"
  | .pointFont => "LD_F_VX"
  | .storeDecimal => "LD_B_VX"
  | .storeRegisters => "LD_MEM_VX"
  | .loadRegisters => "LD_VX_MEM"

def ofName? (name : String) : Option Opcode :=
  all.find? fun opcode => opcode.name = name

def base : Opcode → Word
  | .clearScreen => 0x00E0
  | .ret => 0x00EE
  | .sys => 0x0000
  | .jump => 0x1000
  | .call => 0x2000
  | .skipEqByte => 0x3000
  | .skipNeByte => 0x4000
  | .skipEq => 0x5000
  | .setByte => 0x6000
  | .addByte => 0x7000
  | .alu operation => 0x8000 + UInt16.ofNat operation.code
  | .skipNe => 0x9000
  | .setIndex => 0xA000
  | .jumpOffset => 0xB000
  | .random => 0xC000
  | .draw => 0xD000
  | .skipKey => 0xE09E
  | .skipNoKey => 0xE0A1
  | .readDelay => 0xF007
  | .waitKey => 0xF00A
  | .setDelay => 0xF015
  | .setSound => 0xF018
  | .addIndex => 0xF01E
  | .pointFont => 0xF029
  | .storeDecimal => 0xF033
  | .storeRegisters => 0xF055
  | .loadRegisters => 0xF065

@[reducible] def layout : Opcode → Layout
  | .clearScreen | .ret => .literal
  | .sys | .jump | .call | .setIndex | .jumpOffset => .address
  | .skipEqByte | .skipNeByte | .setByte | .addByte | .random => .registerByte
  | .skipEq | .skipNe => .registers
  | .alu _ => .registers
  | .draw => .sprite
  | .skipKey | .skipNoKey | .readDelay | .waitKey | .setDelay | .setSound | .addIndex
  | .pointFont | .storeDecimal | .storeRegisters | .loadRegisters => .register

def fixedBits (opcode : Opcode) : Word := opcode.layout.fixedBits

theorem base_and_fixedBits (opcode : Opcode) : opcode.base &&& opcode.fixedBits = opcode.base := by
  cases opcode with
  | alu operation => cases operation <;> decide
  | _ => decide

def mnemonic : Opcode → String
  | .clearScreen => "CLS"
  | .ret => "RET"
  | .sys => "SYS"
  | .jump | .jumpOffset => "JP"
  | .call => "CALL"
  | .skipEqByte | .skipEq => "SE"
  | .skipNeByte | .skipNe => "SNE"
  | .addByte | .alu .add | .addIndex => "ADD"
  | .alu .or => "OR"
  | .alu .and => "AND"
  | .alu .xor => "XOR"
  | .alu .sub => "SUB"
  | .alu .shr => "SHR"
  | .alu .subn => "SUBN"
  | .alu .shl => "SHL"
  | .random => "RND"
  | .draw => "DRW"
  | .skipKey => "SKP"
  | .skipNoKey => "SKNP"
  | .setByte | .alu .copy | .setIndex | .readDelay | .waitKey | .setDelay | .setSound | .pointFont
  | .storeDecimal | .storeRegisters | .loadRegisters => "LD"

def operands : Opcode → List Operand
  | .clearScreen | .ret => []
  | .sys | .jump | .call => [.address]
  | .skipEqByte | .skipNeByte | .setByte | .addByte | .random => [.vx, .byte]
  | .skipEq | .skipNe => [.vx, .vy]
  | .alu _ => [.vx, .vy]
  | .setIndex => [.symbol "I", .address]
  | .jumpOffset => [.symbol "V0", .address]
  | .draw => [.vx, .vy, .height]
  | .skipKey | .skipNoKey => [.vx]
  | .readDelay => [.vx, .symbol "DT"]
  | .waitKey => [.vx, .symbol "K"]
  | .setDelay => [.symbol "DT", .vx]
  | .setSound => [.symbol "ST", .vx]
  | .addIndex => [.symbol "I", .vx]
  | .pointFont => [.symbol "F", .vx]
  | .storeDecimal => [.symbol "B", .vx]
  | .storeRegisters => [.symbol "[I]", .vx]
  | .loadRegisters => [.vx, .symbol "[I]"]

/-! ## The opcode of a word -/

def ofKeyCode? : Nat → Option Opcode
  | 0x9E => some .skipKey
  | 0xA1 => some .skipNoKey
  | _ => none

def ofPeripheralCode? : Nat → Option Opcode
  | 0x07 => some .readDelay
  | 0x0A => some .waitKey
  | 0x15 => some .setDelay
  | 0x18 => some .setSound
  | 0x1E => some .addIndex
  | 0x29 => some .pointFont
  | 0x33 => some .storeDecimal
  | 0x55 => some .storeRegisters
  | 0x65 => some .loadRegisters
  | _ => none

def ofSystemWord (word : Word) : Opcode :=
  if word = 0x00E0 then .clearScreen else if word = 0x00EE then .ret else .sys

/-- The opcode of a word, found by its first digit and, in the families that need it, by its last
digit or its last byte. -/
def ofWord? (word : Word) : Option Opcode :=
  match word.family with
  | 0x0 => some (ofSystemWord word)
  | 0x1 => some .jump
  | 0x2 => some .call
  | 0x3 => some .skipEqByte
  | 0x4 => some .skipNeByte
  | 0x5 => if word.n = 0 then some .skipEq else none
  | 0x6 => some .setByte
  | 0x7 => some .addByte
  | 0x8 => (Alu.ofCode? word.n.val).map .alu
  | 0x9 => if word.n = 0 then some .skipNe else none
  | 0xA => some .setIndex
  | 0xB => some .jumpOffset
  | 0xC => some .random
  | 0xD => some .draw
  | 0xE => ofKeyCode? word.kk.toNat
  | 0xF => ofPeripheralCode? word.kk.toNat
  | _ => none

example : ofWord? 0x00EF = some .sys := rfl

example : ofWord? 0x5121 = none := rfl

/-! ## Search under masks -/

def masks : List Word := [0xFFFF, 0xF0FF, 0xF00F, 0xF000]

/-- The opcode whose base a word has under its mask, tried mask by mask. -/
def search? (word : Word) : Option Opcode :=
  masks.findSome? fun mask =>
    all.find? fun opcode => opcode.fixedBits = mask ∧ opcode.base = word &&& mask

example : search? 0x00EE = some .ret := rfl

end Opcode

end Chip8
