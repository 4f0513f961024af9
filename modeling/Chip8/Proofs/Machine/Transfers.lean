import Chip8.Machine.Options
import Chip8.Proofs.Machine.Effect
import Chip8.Proofs.Memory.CheckedStore

/-! # Registers in memory and back

Registers that were stored are loaded again from any machine that still has their bytes, and a load
that is stored again changes nothing. Three decimal digits are loaded as the number they are of.
-/

namespace Chip8

/-! ## Ranges of memory -/

namespace Memory

variable {memory written other : Memory}

theorem read_of_write {address : Nat} {data : List UInt8}
    (success : memory.write address data = .ok written) (size : other.size = written.size)
    (kept : ∀ place, address ≤ place → place < address + data.length →
      other.byte? place = written.byte? place) :
    other.read address data.length = .ok data := by
  rcases write_eq_ok_iff.mp success with ⟨⟨_, within, _⟩, rfl⟩
  rw [Int.toNat_natCast] at size kept
  rw [size_patch] at size
  refine read_eq_ok_iff.mpr ⟨by omega, ?_⟩
  apply List.ext_getElem?
  intro offset
  rw [Int.toNat_natCast, Int.toNat_natCast, getElem?_slice]
  by_cases inside : offset < data.length
  · rw [if_pos inside, kept _ (by omega) (by omega), byte?_patch, if_pos (by omega),
      Nat.add_sub_cancel_left]
  · rw [if_neg inside, List.getElem?_eq_none (Nat.le_of_not_lt inside)]

theorem patch_slice (memory : Memory) (address length : Nat) :
    memory.patch address (memory.slice address length) = memory := by
  apply eq_of_byte?
  intro place
  rw [byte?_patch]
  split
  next inside =>
    have bound : (memory.slice address length).length ≤ length := by
      simp only [slice, Array.length_toList, Array.size_extract]
      omega
    rw [getElem?_slice, if_pos (by omega), Nat.add_sub_cancel' inside.1]
  next => rfl

theorem write_of_read {address length : Nat} {data : List UInt8}
    (success : memory.read address length = .ok data) (positive : 0 < length) :
    memory.write address data =
      if address < reservedEnd then .error (.outOfBounds address length .reserved)
      else .ok memory := by
  rcases read_eq_ok_iff.mp success with ⟨⟨_, _, within⟩, rfl⟩
  rw [Int.toNat_natCast, Int.toNat_natCast]
  have whole : (memory.slice address length).length = length := length_slice (by omega)
  have nonempty : memory.slice address length ≠ [] := List.ne_nil_of_length_pos (by omega)
  split
  next reserved =>
    rw [write, whole, if_neg (by omega), if_pos ⟨by omega, nonempty⟩]
  next allowed =>
    refine write_eq_ok_iff.mpr ⟨⟨by omega, by omega, .inr (by omega)⟩, ?_⟩
    exact memory.patch_slice address length

end Memory

/-! ## The first registers -/

namespace Registers

theorem getElem?_upTo (registers : Registers) {last register : Register}
    (within : register ≤ last) :
    (registers.upTo last)[register.val]? = some registers[register] := by
  have inside : register.val < last.val + 1 := Nat.lt_succ_of_le within
  rw [upTo, List.getElem?_take_of_lt inside, Vector.getElem?_toList]
  exact Vector.getElem?_eq_getElem (Register.lt register)

theorem upTo_replaceFirst (registers : Registers) {last : Register} {values : List UInt8}
    (length : values.length = last.val + 1) :
    (registers.replaceFirst values).upTo last = values := by
  apply List.ext_getElem?
  intro position
  by_cases inside : position < last.val + 1
  · let register : Register := ⟨position, by have bound := last.isLt; omega⟩
    have given := List.getElem?_eq_getElem (length ▸ inside)
    have within : register ≤ last := Nat.le_of_lt_succ inside
    have found := (registers.replaceFirst values).getElem?_upTo within
    rw [getElem_replaceFirst, given, Option.getD_some] at found
    rw [given]
    exact found
  · rw [List.getElem?_eq_none (by rw [length_upTo]; omega), List.getElem?_eq_none (by omega)]

end Registers

namespace Machine

variable {machine stored loaded other : Machine} {x : Register}

structure SameRange (machine other : Machine) (x : Register) : Prop where
  index : other.index = machine.index
  size : other.memory.size = machine.memory.size
  bytes : ∀ address, machine.index.toNat ≤ address → address ≤ machine.index.toNat + x.val →
    other.memory.byte? address = machine.memory.byte? address

theorem store_eq_ok_iff {data : List UInt8} :
    machine.store data = .ok stored ↔ ∃ memory,
      machine.memory.write machine.index.toNat data = .ok memory ∧
        { machine with memory } = stored :=
  map_eq_ok_iff

theorem loadRegisters_eq_ok_iff :
    machine.loadRegisters x = .ok loaded ↔ ∃ values,
      machine.memory.read machine.index.toNat (x.val + 1 : Nat) = .ok values ∧
        { machine with v := machine.v.replaceFirst values } = loaded :=
  map_eq_ok_iff

theorem load_of_store (success : machine.execute ⟨.storeRegisters, x⟩ = .ok stored)
    (same : stored.SameRange other x) :
    ∃ restored, other.execute ⟨.loadRegisters, x⟩ = .ok restored ∧
      restored.index = machine.index ∧
      ∀ register, register ≤ x → restored.v[register] = machine.v[register] := by
  rcases store_eq_ok_iff.mp success with ⟨memory, written, rfl⟩
  have readable := Memory.read_of_write written same.size fun place lower upper => by
    rw [Registers.length_upTo] at upper
    exact same.bytes place lower (Nat.le_of_lt_succ upper)
  rw [Registers.length_upTo] at readable
  have index : other.index = machine.index := same.index
  rw [← index] at readable
  refine ⟨_, loadRegisters_eq_ok_iff.mpr ⟨_, readable, rfl⟩, index, fun register within => ?_⟩
  rw [Registers.getElem_replaceFirst, machine.v.getElem?_upTo within, Option.getD_some]

theorem store_of_load (success : machine.execute ⟨.loadRegisters, x⟩ = .ok loaded) :
    loaded.execute ⟨.storeRegisters, x⟩ =
      if machine.index.toNat < Memory.reservedEnd then
        .error (.outOfBounds machine.index.toNat (x.val + 1 : Nat) .reserved)
      else .ok loaded := by
  rcases loadRegisters_eq_ok_iff.mp success with ⟨values, readable, rfl⟩
  have written := Memory.write_of_read readable (Nat.succ_pos _)
  have length : values.length = x.val + 1 := Memory.length_of_read readable
  have stores : (machine.v.replaceFirst values).upTo x = values :=
    machine.v.upTo_replaceFirst length
  rw [execute, store, stores, written]
  split
  next => rfl
  next => rfl

theorem decimalDigits_exact (value : UInt8) :
    ∃ hundreds tens ones, decimalDigits value = [hundreds, tens, ones] ∧
      hundreds ≤ 9 ∧ tens ≤ 9 ∧ ones ≤ 9 ∧
      100 * hundreds.toNat + 10 * tens.toNat + ones.toNat = value.toNat := by
  have bound := value.toNat_lt
  refine ⟨_, _, _, rfl, ?_⟩
  simp only [UInt8.le_iff_toNat_le, UInt8.toNat_div, UInt8.toNat_mod, UInt8.reduceToNat]
  omega

theorem digits_of_store (success : machine.execute ⟨.storeDecimal, x⟩ = .ok stored) :
    ∃ loaded, stored.execute ⟨.loadRegisters, (2 : Register)⟩ = .ok loaded ∧
      loaded.index = machine.index ∧
      loaded.v[(0 : Register)] ≤ 9 ∧ loaded.v[(1 : Register)] ≤ 9 ∧ loaded.v[(2 : Register)] ≤ 9 ∧
      100 * loaded.v[(0 : Register)].toNat + 10 * loaded.v[(1 : Register)].toNat +
        loaded.v[(2 : Register)].toNat = machine.v[x].toNat := by
  rcases store_eq_ok_iff.mp success with ⟨memory, written, rfl⟩
  have readable := Memory.read_of_write written rfl fun _ _ _ => rfl
  refine ⟨_, loadRegisters_eq_ok_iff.mpr ⟨_, readable, rfl⟩, rfl, ?_⟩
  rcases decimalDigits_exact machine.v[x] with ⟨hundreds, tens, ones, digits, exact⟩
  rw [digits]
  simp only [Registers.getElem_replaceFirst]
  exact exact

theorem index_of_store {data : List UInt8} (success : machine.store data = .ok stored) :
    stored.index = machine.index := by
  rcases store_eq_ok_iff.mp success with ⟨memory, _, rfl⟩
  rfl

/-- Storing and loading registers undo each other, and the index register stays. Stored registers
are loaded by any machine that finds their bytes. A load that is stored again is without effect or,
if its bytes are in the reserved area, refused. The digits that `storeDecimal` stores make up the
register when they are loaded. -/
theorem transfers_invert (machine : Machine) (x : Register) :
    (∀ stored, machine.execute ⟨.storeRegisters, x⟩ = .ok stored →
      stored.index = machine.index ∧ ∀ other, stored.SameRange other x →
        ∃ restored, other.execute ⟨.loadRegisters, x⟩ = .ok restored ∧
          restored.index = machine.index ∧
          ∀ register, register ≤ x → restored.v[register] = machine.v[register]) ∧
    (∀ loaded, machine.execute ⟨.loadRegisters, x⟩ = .ok loaded →
      loaded.index = machine.index ∧
        loaded.execute ⟨.storeRegisters, x⟩ =
          if machine.index.toNat < Memory.reservedEnd then
            .error (.outOfBounds machine.index.toNat (x.val + 1 : Nat) .reserved)
          else .ok loaded) ∧
    ∀ stored, machine.execute ⟨.storeDecimal, x⟩ = .ok stored →
      stored.index = machine.index ∧
        ∃ loaded, stored.execute ⟨.loadRegisters, (2 : Register)⟩ = .ok loaded ∧
          loaded.index = machine.index ∧ loaded.v[(0 : Register)] ≤ 9 ∧
          loaded.v[(1 : Register)] ≤ 9 ∧ loaded.v[(2 : Register)] ≤ 9 ∧
          100 * loaded.v[(0 : Register)].toNat + 10 * loaded.v[(1 : Register)].toNat +
            loaded.v[(2 : Register)].toNat = machine.v[x].toNat := by
  refine ⟨fun stored success => ?_, fun loaded success => ?_, fun stored success => ?_⟩
  · exact ⟨index_of_store success, fun other => load_of_store success⟩
  · refine ⟨?_, store_of_load success⟩
    rcases loadRegisters_eq_ok_iff.mp success with ⟨_, _, rfl⟩
    rfl
  · exact ⟨index_of_store success, digits_of_store success⟩

def beforeEnd : Machine :=
  { Machine.ofParts 0 (.initial 0x204) (.blank 8 1) (.empty 16) false with
    index := 0x200
    v := Registers.zeros.put 3 254 }

/-- Four registers fill these bytes, three digits leave one of them. -/
theorem transfers_invert_beforeEnd :
    (∃ stored restored, beforeEnd.execute ⟨.storeRegisters, (3 : Register)⟩ = .ok stored ∧
      Machine.execute { stored with v := .zeros } ⟨.loadRegisters, (3 : Register)⟩ =
        .ok restored ∧ restored.v[(3 : Register)] = 254) ∧
    (∃ loaded, beforeEnd.execute ⟨.loadRegisters, (3 : Register)⟩ = .ok loaded ∧
      loaded.execute ⟨.storeRegisters, (3 : Register)⟩ = .ok loaded) ∧
    ∃ stored loaded, beforeEnd.execute ⟨.storeDecimal, (3 : Register)⟩ = .ok stored ∧
      stored.execute ⟨.loadRegisters, (2 : Register)⟩ = .ok loaded ∧
      100 * loaded.v[(0 : Register)].toNat + 10 * loaded.v[(1 : Register)].toNat +
        loaded.v[(2 : Register)].toNat = 254 := by
  have size : beforeEnd.memory.size = 0x204 := Memory.size_initial 0x204
  have writable (data : List UInt8) (short : data.length ≤ 4) :
      ∃ stored, beforeEnd.store data = .ok stored := by
    have start : (beforeEnd.index.toNat : Int) = 0x200 := rfl
    have reserved : (Memory.reservedEnd : Int) = 0x200 := rfl
    refine ⟨_, store_eq_ok_iff.mpr ⟨_, Memory.write_eq_ok_iff.mpr ⟨?_, rfl⟩, rfl⟩⟩
    rw [size, start, reserved]
    exact ⟨by omega, by omega, .inr (Int.le_refl _)⟩
  rcases transfers_invert beforeEnd 3 with ⟨dump, load, decimal⟩
  refine ⟨?_, ?_, ?_⟩
  · rcases writable (beforeEnd.v.upTo 3) (by decide) with ⟨stored, success⟩
    rcases (dump stored success).2 { stored with v := .zeros } ⟨rfl, rfl, fun _ _ _ => rfl⟩
      with ⟨restored, loads, _, same⟩
    exact ⟨stored, restored, success, loads, same 3 (by decide)⟩
  · have readable : ∃ loaded, beforeEnd.execute ⟨.loadRegisters, (3 : Register)⟩ = .ok loaded := by
      refine ⟨_, loadRegisters_eq_ok_iff.mpr ⟨_, Memory.read_eq_ok_iff.mpr ⟨?_, rfl⟩, rfl⟩⟩
      rw [size]
      decide
    rcases readable with ⟨loaded, success⟩
    exact ⟨loaded, success, (load loaded success).2⟩
  · rcases writable (decimalDigits 254) (by decide) with ⟨stored, success⟩
    rcases (decimal stored success).2 with ⟨loaded, loads, _, _, _, _, sum⟩
    exact ⟨stored, loaded, success, loads, sum⟩

end Machine

end Chip8
