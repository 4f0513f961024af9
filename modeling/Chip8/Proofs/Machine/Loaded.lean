import Chip8.Proofs.Listing.RoundTrip
import Chip8.Proofs.Machine.Faults
import Chip8.Proofs.Machine.ReservedArea

/-! # Machines that have just loaded an image

A new machine that loads an image holds the image at its base, and zeros from there to the end of
memory. What a listing says of a word is therefore what the machine fetches there, an odd last byte
included, and a step there executes the instruction of the row.
-/

namespace Chip8

namespace Memory

theorem reservedEnd_le_base (image : Image) : reservedEnd ≤ image.base := by
  rw [Image.base]
  cases image.variant <;> decide

theorem byte?_load {size offset : Nat} {loaded : Memory} {image : Image}
    (success : (initial size).load image = .ok loaded) (within : image.base + offset < size) :
    loaded.byte? (image.base + offset) = some ((image.data[offset]?).getD 0) := by
  rcases load_eq_ok_iff.mp success with ⟨_, rfl⟩
  rw [byte?_patch, size_initial]
  by_cases covered : offset < image.data.length
  · rw [if_pos (by omega), Nat.add_sub_cancel_left, List.getElem?_eq_getElem covered]
    rfl
  · have above := reservedEnd_le_base image
    have fontBelow : Font.stop ≤ reservedEnd := by decide
    rw [if_neg (by omega), byte?_initial, if_pos within, newByte_of_stop_le (by omega),
      List.getElem?_eq_none (Nat.le_of_not_lt covered)]
    rfl

end Memory

theorem Listing.getD_of_completed {data : List UInt8} {offset : Nat} {byte : UInt8}
    (found : (completed data)[offset]? = some byte) : (data[offset]?).getD 0 = byte := by
  rw [completed, List.getElem?_append] at found
  split at found
  next => rw [found, Option.getD_some]
  next past =>
    rw [List.getElem?_eq_none (Nat.le_of_not_lt past)]
    exact (List.eq_of_mem_replicate (List.mem_of_getElem? found)).symm

namespace Machine

theorem toNat_base (image : Image) : (UInt16.ofNat image.base).toNat = image.base := by
  rw [Image.base]
  cases image.variant <;> rfl

def pointedAt (machine : Machine) (address : Int) : Machine :=
  { machine with pc := UInt16.ofNat address.toNat }

theorem advanced_pointedAt (machine : Machine) {address : Int} (nonnegative : 0 ≤ address) :
    (machine.pointedAt address).advanced = machine.pointedAt (address + 2) := by
  have next : (address + 2).toNat = address.toNat + 2 := by omega
  rw [pointedAt, pointedAt, next, UInt16.ofNat_add]
  rfl

structure Follows (machine : Machine) (row : ListingRow) : Prop where
  place : ((machine.pointedAt row.address).pc.toNat : Int) = row.address
  fetches : machine.memory.fetchWord row.address = .ok row.word
  refuses : (machine.pointedAt row.address).step = .error (.invalidOpcode row.word.toNat) ↔
    row.instruction = none
  executes : ∀ instruction, row.instruction = some instruction →
    (machine.pointedAt row.address).step =
      (machine.pointedAt (row.address + 2)).execute instruction

variable {options : Options} {fresh loaded : Machine} {image : Image} {row : ListingRow}

theorem foreign_of_step {machine : Machine} {word : Word} {number : Int}
    (bounded : machine.stack.Bounded) (holds : machine.Holds word)
    (failure : machine.step = .error (.invalidOpcode number)) :
    Instruction.ofWord? word = none := by
  rcases (step_eq_error_iff bounded _).mp failure with ⟨_, fails⟩
  cases fails with
  | noOpcode held foreign =>
      rw [held.unique holds] at foreign
      exact Option.map_eq_none_iff.mpr ((Opcode.ofWord?_eq_none_iff word).mpr foreign)
  | @refused instruction _ _ refuses =>
      generalize instruction.demand = demand at refuses
      cases refuses

theorem memory_of_load (built : build options = .ok fresh) (success : fresh.load image = .ok loaded) :
    ∃ size : Nat, (size : Int) = options.memorySize ∧
      (Memory.initial size).load image = .ok loaded.memory := by
  rcases parts_of_build built with ⟨memory, display, stack, created, _, _, rfl⟩
  rcases map_eq_ok_iff.mp success with ⟨copied, loads, rfl⟩
  rcases Memory.create_cases created with ⟨size, shape⟩
  have loads : memory.load image = .ok copied := loads
  rw [shape] at loads
  exact ⟨memory.size, size, loads⟩

theorem free_of_load (built : build options = .ok fresh) (success : fresh.load image = .ok loaded)
    (address : Int) : (loaded.pointedAt address).blocked = false := by
  rcases parts_of_build built with ⟨memory, display, stack, _, _, _, rfl⟩
  rcases map_eq_ok_iff.mp success with ⟨copied, _, rfl⟩
  rfl

theorem holds_of_load (built : build options = .ok fresh) (success : fresh.load image = .ok loaded)
    (member : row ∈ Listing.rows image.data image.base)
    (within : row.address + 1 < options.memorySize) :
    ((loaded.pointedAt row.address).pc.toNat : Int) = row.address ∧
      (loaded.pointedAt row.address).Holds row.word := by
  rcases memory_of_load built success with ⟨size, same, loads⟩
  rcases Listing.exists_place_of_mem_rows member with ⟨index, _, place, inside, high, low⟩
  rcases (Memory.load_eq_ok_iff.mp loads).1 with ⟨fits, _⟩
  have top := image.variant.base_add_budget
  have address : row.address.toNat = image.base + 2 * index := by omega
  have pc : (loaded.pointedAt row.address).pc.toNat = image.base + 2 * index := by
    rw [pointedAt, address]
    refine UInt16.toNat_ofNat_of_lt' ?_
    rw [Image.size] at fits
    rw [UInt16.size, Image.base]
    omega
  refine ⟨by omega, ?_, ?_⟩
  · rw [pc]
    exact (Memory.byte?_load loads (by omega)).trans
      (congrArg some (Listing.getD_of_completed high))
  · rw [pc]
    exact (Memory.byte?_load loads (by omega)).trans
      (congrArg some (Listing.getD_of_completed low))

theorem follows_of_load (built : build options = .ok fresh) (success : fresh.load image = .ok loaded)
    (member : row ∈ Listing.rows image.data image.base)
    (within : row.address + 1 < options.memorySize) : loaded.Follows row := by
  rcases holds_of_load built success member within with ⟨place, holds⟩
  have decoded := Listing.instruction_of_mem_rows member
  have free := free_of_load built success row.address
  have bounded : (loaded.pointedAt row.address).stack.Bounded := by
    have responds : fresh.respond (.load image) = .ok loaded := success
    have reached : loaded.stack.Clean := clean_of_respond (clean_afterAll built []) responds
    exact reached.bounded
  constructor
  · exact place
  · rw [← place]
    exact fetchWord_of_holds holds
  · constructor
    · intro failure
      rw [decoded]
      exact foreign_of_step bounded holds failure
    · intro foreign
      exact step_of_foreign free holds (decoded.symm.trans foreign)
  · intro instruction found
    have nonnegative : 0 ≤ row.address := by omega
    rw [← advanced_pointedAt loaded nonnegative]
    exact step_of_points free ⟨row.word, holds, decoded.symm.trans found⟩

theorem last_of_past (built : build options = .ok fresh) (success : fresh.load image = .ok loaded)
    (member : row ∈ Listing.rows image.data image.base)
    (past : options.memorySize ≤ row.address + 1) :
    image.size % 2 = 1 ∧ (Listing.rows image.data image.base).getLast? = some row := by
  rcases memory_of_load built success with ⟨size, same, loads⟩
  rcases Listing.exists_place_of_mem_rows member with ⟨index, found, place, inside, _, _⟩
  rcases (Memory.load_eq_ok_iff.mp loads).1 with ⟨_, whole⟩
  rw [Memory.size_initial] at whole
  rw [Image.size] at whole ⊢
  refine ⟨by omega, ?_⟩
  have last : (Listing.rows image.data image.base).length - 1 = index := by
    rw [Listing.length_rows]
    omega
  rw [List.getLast?_eq_getElem?, last, found]

end Machine

end Chip8
