import Chip8.Machine.Options
import Chip8.Proofs.Machine.Histories

/-! # The reserved area

Every write that a program or an image can make ends up at or above the reserved area, whatever the
size of memory: a checked write is refused if it begins below, and both variants load above. The
bytes below are therefore those of new memory after every history, and the sprites of the digits
stay readable where `pointFont` finds them.
-/

namespace Chip8

namespace Memory

structure SameReserved (left right : Memory) : Prop where
  size : left.size = right.size
  bytes : ∀ address, address < reservedEnd → left.byte? address = right.byte? address

theorem SameReserved.refl (memory : Memory) : SameReserved memory memory :=
  ⟨rfl, fun _ _ => rfl⟩

theorem SameReserved.trans {first second third : Memory} (left : SameReserved first second)
    (right : SameReserved second third) : SameReserved first third :=
  ⟨left.size.trans right.size, fun address reserved =>
    (left.bytes address reserved).trans (right.bytes address reserved)⟩

theorem sameReserved_patch (memory : Memory) {address : Nat} {data : List UInt8}
    (above : data = [] ∨ reservedEnd ≤ address) :
    SameReserved (memory.patch address data) memory := by
  refine ⟨memory.size_patch address data, fun index reserved => ?_⟩
  rw [byte?_patch]
  rcases above with empty | above
  · rw [empty, if_neg (by rw [List.length_nil]; omega)]
  · rw [if_neg (by omega)]

theorem sameReserved_write {memory written : Memory} {address : Int} {data : List UInt8}
    (success : memory.write address data = .ok written) : SameReserved written memory := by
  rcases write_eq_ok_iff.mp success with ⟨⟨_, _, allowed⟩, rfl⟩
  apply sameReserved_patch
  rcases allowed with empty | above
  · exact .inl empty
  · exact .inr (by omega)

theorem sameReserved_load {memory loaded : Memory} {image : Image}
    (success : memory.load image = .ok loaded) : SameReserved loaded memory := by
  rcases load_eq_ok_iff.mp success with ⟨_, rfl⟩
  apply sameReserved_patch
  right
  rw [Image.base]
  cases image.variant <;> decide

/-! ## The font -/

theorem create_cases {size : Int} {memory : Memory} (created : create size = .ok memory) :
    (memory.size : Int) = size ∧ memory = initial memory.size := by
  rw [create, checkedSize] at created
  by_cases negative : size < 0
  · rw [if_pos negative] at created
    cases created
  · rw [if_neg negative] at created
    simp only at created
    split at created
    · cases created
    · cases created
      rw [size_initial]
      exact ⟨Int.toNat_of_nonneg (Int.not_lt.mp negative), rfl⟩

def newByte (address : Nat) : UInt8 :=
  if Font.start ≤ address then (Font.data[address - Font.start]?).getD 0 else 0

theorem byte?_initial (size index : Nat) :
    (initial size).byte? index = if index < size then some (newByte index) else none := by
  have zeros : (zeros size).byte? index = if index < size then some 0 else none := by
    rw [byte?, Memory.zeros, Array.getElem?_replicate]
  have sizeZeros : (Memory.zeros size).size = size := Array.size_replicate
  rw [initial, newByte]
  split
  next small =>
    rw [zeros]
    split
    · rw [if_neg (by omega)]
    · rfl
  next large =>
    rw [byte?_patch, sizeZeros, zeros]
    grind

theorem newByte_of_stop_le {index : Nat} (above : Font.stop ≤ index) : newByte index = 0 := by
  have stop : Font.stop = Font.start + Font.data.length := rfl
  rw [newByte, if_pos (by omega), List.getElem?_eq_none (by omega)]
  rfl

theorem font_address (digit : Fin 16) : Font.address digit = 80 + digit.val * 5 := rfl

theorem toNat_font_address (digit : Fin 16) :
    (UInt16.ofNat (Font.address digit)).toNat = Font.address digit := by
  have bound := digit.isLt
  have place := font_address digit
  rw [UInt16.toNat_ofNat']
  omega

end Memory

namespace Machine

theorem sameReserved_of_respond {machine next : Machine} {event : Event}
    (success : machine.respond event = .ok next) :
    next.memory.SameReserved machine.memory := by
  rcases memory_of_respond success with same | ⟨data, _, written⟩ | ⟨image, loaded⟩
  · rw [same]
    exact .refl _
  · exact Memory.sameReserved_write written
  · exact Memory.sameReserved_load loaded

end Machine

end Chip8
