import Chip8.Word

/-!
# Registers

Sixteen registers of a byte each. The last one also takes flags.
-/

namespace Chip8

abbrev Registers := Vector UInt8 16

namespace Registers

instance instGetElem : GetElem Registers Register UInt8 fun _ _ => True where
  getElem registers register _ := getElem registers register.val (Register.lt register)

def zeros : Registers := Vector.replicate 16 0

def flagRegister : Register := 15

def put (registers : Registers) (register : Register) (value : UInt8) : Registers :=
  registers.set register.val value (Register.lt register)

def upTo (registers : Registers) (last : Register) : List UInt8 :=
  registers.toList.take (last.val + 1)

def replaceFirst (registers : Registers) (values : List UInt8) : Registers :=
  registers.mapIdx fun register old => values[register]?.getD old

theorem getElem_put (registers : Registers) (register other : Register) (value : UInt8) :
    (registers.put register value)[other] =
      if register = other then value else registers[other] := by
  simp only [Fin.ext_iff]
  exact Vector.getElem_set (Register.lt register) (Register.lt other)

theorem getElem_put_of_ne (registers : Registers) {register other : Register} (value : UInt8)
    (different : other ≠ register) : (registers.put register value)[other] = registers[other] := by
  rw [getElem_put, if_neg different.symm]

theorem getElem_replaceFirst (registers : Registers) (values : List UInt8) (register : Register) :
    (registers.replaceFirst values)[register] = values[register.val]?.getD registers[register] :=
  Vector.getElem_mapIdx (Register.lt register)

end Registers

end Chip8
