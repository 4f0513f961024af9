import Chip8.Proofs.Machine.Parts
import Chip8.Proofs.Machine.ReservedArea

/-! # Well-formed machines

Addresses have twelve bits although the index register and the cells of the stack have sixteen.
Every instruction that makes an address cuts it, so the bound holds of all machines that a history
leads to, and with it the order of the stack. The sizes of the parts are those of the options.
-/

namespace Chip8

theorem Display.create_cases {width height : Int} {display : Display}
    (created : create width height = .ok display) :
    (display.width : Int) = width ∧ (display.height : Int) = height := by
  rw [create, checkedSize, checkedSize] at created
  by_cases narrow : width < 0
  · rw [if_pos narrow] at created
    cases created
  · rw [if_neg narrow] at created
    by_cases low : height < 0
    · rw [if_pos low] at created
      cases created
    · rw [if_neg low] at created
      cases created
      exact ⟨Int.toNat_of_nonneg (Int.not_lt.mp narrow), Int.toNat_of_nonneg (Int.not_lt.mp low)⟩

namespace Machine

variable {machine next : Machine} {event : Event} {instruction : Instruction} {options : Options}

structure WellFormed (machine : Machine) : Prop where
  index : machine.index.toNat ≤ Address.greatest
  stack : machine.stack.Clean
  narrow : machine.stack.Narrow
  waiting : ∀ x, machine.waiting = some x → x.val < registerCount

structure Fits (machine : Machine) (options : Options) : Prop where
  memory : (machine.memory.size : Int) = options.memorySize
  stack : (machine.stack.depth : Int) = options.stackDepth
  width : (machine.display.width : Int) = options.width
  height : (machine.display.height : Int) = options.height
  registers : machine.v.toArray.size = registerCount
  keys : machine.keypad.toNat < 2 ^ keyCount
  shift : machine.shiftUsesY = options.shiftUsesY

/-! ## The index register -/

theorem toNat_offsetBy (address : Nat) (offset : UInt8) :
    (offsetBy address offset).toNat = (address + offset.toNat) % 4096 := by
  rw [offsetBy, UInt16.toNat_ofNat']
  omega

theorem toNat_offsetBy_le (address : Nat) (offset : UInt8) :
    (offsetBy address offset).toNat ≤ Address.greatest := by
  rw [toNat_offsetBy, Address.greatest]
  omega

theorem toNat_toWord (address : Address) : address.toWord.toNat = address.val := by
  have bound := address.isLt
  rw [Address.toWord, UInt16.toNat_ofNat']
  omega

theorem toNat_toWord_le (address : Address) : address.toWord.toNat ≤ Address.greatest := by
  rw [toNat_toWord]
  exact address.le_greatest

theorem toNat_font_address_le (digit : Fin 16) :
    (UInt16.ofNat (Font.address digit)).toNat ≤ Address.greatest := by
  have bound := digit.isLt
  rw [Memory.toNat_font_address, Memory.font_address, Address.greatest]
  omega

theorem index_of_execute (success : machine.execute instruction = .ok next) :
    next.index = machine.index ∨ next.index.toNat ≤ Address.greatest := by
  by_cases written : Part.index ∈ instruction.opcode.writes
  · right
    rcases instruction with ⟨opcode, operands⟩
    cases opcode with
    | setIndex =>
        cases success
        exact toNat_toWord_le operands
    | addIndex =>
        cases success
        exact toNat_offsetBy_le _ _
    | pointFont =>
        cases success
        exact toNat_font_address_le _
    | _ => simp [Opcode.writes] at written
  · exact .inl (execute_sameAt success written)

theorem wellFormed_of_respond (wellFormed : machine.WellFormed)
    (success : machine.respond event = .ok next) : next.WellFormed := by
  refine ⟨?_, clean_of_respond wellFormed.stack success, ?_, fun x _ => x.isLt⟩
  · rcases respond_cases success with
      ⟨ticks, keypad, rfl⟩ | ⟨image, loaded⟩ | ⟨pc, instruction, executed⟩
    · exact wellFormed.index
    · rcases map_eq_ok_iff.mp loaded with ⟨memory, _, rfl⟩
      exact wellFormed.index
    · rcases index_of_execute executed with same | small
      · rw [same]
        exact wellFormed.index
      · exact small
  · rcases stack_of_respond success with same | ⟨address, pushed⟩ | ⟨address, popped⟩
    · rw [same]
      exact wellFormed.narrow
    · exact wellFormed.narrow.push pushed
    · exact wellFormed.narrow.pop popped

/-! ## The sizes -/

theorem depth_of_respond (success : machine.respond event = .ok next) :
    next.stack.depth = machine.stack.depth := by
  rcases stack_of_respond success with same | ⟨address, pushed⟩ | ⟨address, popped⟩
  · rw [same]
  · exact CallStack.depth_push pushed
  · exact CallStack.depth_pop popped

theorem display_of_execute (success : machine.execute instruction = .ok next) :
    next.display.width = machine.display.width ∧
      next.display.height = machine.display.height := by
  by_cases written : Part.display ∈ instruction.opcode.writes
  · rcases instruction with ⟨opcode, operands⟩
    cases opcode with
    | clearScreen =>
        cases success
        exact ⟨rfl, rfl⟩
    | draw =>
        rcases map_eq_ok_iff.mp success with ⟨rows, _, rfl⟩
        exact ⟨rfl, rfl⟩
    | _ => simp [Opcode.writes] at written
  · have same : next.display = machine.display := execute_sameAt success written
    rw [same]
    exact ⟨rfl, rfl⟩

theorem display_of_respond (success : machine.respond event = .ok next) :
    next.display.width = machine.display.width ∧
      next.display.height = machine.display.height := by
  rcases respond_cases success with
    ⟨ticks, keypad, rfl⟩ | ⟨image, loaded⟩ | ⟨pc, instruction, executed⟩
  · exact ⟨rfl, rfl⟩
  · rcases map_eq_ok_iff.mp loaded with ⟨memory, _, rfl⟩
    exact ⟨rfl, rfl⟩
  · have kept := display_of_execute executed
    exact kept

theorem option_of_respond (success : machine.respond event = .ok next) :
    next.shiftUsesY = machine.shiftUsesY := by
  rcases respond_cases success with
    ⟨ticks, keypad, rfl⟩ | ⟨image, loaded⟩ | ⟨pc, instruction, executed⟩
  · rfl
  · rcases map_eq_ok_iff.mp loaded with ⟨memory, _, rfl⟩
    rfl
  · have kept := option_of_execute executed
    exact kept

theorem fits_of_respond (fits : machine.Fits options)
    (success : machine.respond event = .ok next) : next.Fits options where
  memory := by
    rw [(sameReserved_of_respond success).size]
    exact fits.memory
  stack := by
    rw [depth_of_respond success]
    exact fits.stack
  width := by
    rw [(display_of_respond success).1]
    exact fits.width
  height := by
    rw [(display_of_respond success).2]
    exact fits.height
  registers := next.v.size_toArray
  keys := next.keypad.bits.isLt
  shift := (option_of_respond success).trans fits.shift

/-! ## Histories -/

theorem wellFormed_of_build {start : Machine} (built : build options = .ok start) :
    start.WellFormed := by
  rcases parts_of_build built with ⟨memory, display, stack, _, _, created, rfl⟩
  exact ⟨Nat.zero_le _, CallStack.clean_create created, CallStack.narrow_create created, nofun⟩

theorem fits_of_build {start : Machine} (built : build options = .ok start) :
    start.Fits options := by
  rcases parts_of_build built with
    ⟨memory, display, stack, memoryCreated, displayCreated, stackCreated, rfl⟩
  rcases Display.create_cases displayCreated with ⟨width, height⟩
  exact ⟨(Memory.create_cases memoryCreated).1, (CallStack.create_cases stackCreated).1, width,
    height, Vector.size_toArray _, BitVec.isLt _, rfl⟩

/-- A machine is well formed and of the sizes that it was built with, whatever happened to it. -/
theorem wellFormed_afterAll {start : Machine} (built : build options = .ok start)
    (events : List Event) :
    (start.afterAll events).WellFormed ∧ (start.afterAll events).Fits options :=
  ⟨afterAll_preserves WellFormed wellFormed_of_respond (wellFormed_of_build built) events,
    afterAll_preserves (fun machine => machine.Fits options) fits_of_respond
      (fits_of_build built) events⟩

def overflowing : List Event :=
  [.load ⟨[0xAF, 0xFF, 0x60, 0xFF, 0xF0, 0x1E, 0x22, 0x06], .standard⟩, .step, .step, .step, .step,
    .step]

theorem wellFormed_afterAll_overflowing :
    ∃ start, build { memorySize := 0x208, stackDepth := 1, width := 8, height := 1 } = .ok start ∧
      (start.afterAll overflowing).WellFormed ∧ (start.afterAll overflowing).stack.depth = 1 ∧
      (start.afterAll overflowing).stack.pointer = 1 ∧
      (start.afterAll overflowing).index = 0x0FE := by
  let start := ofParts 0 (.initial 0x208) (.blank 8 1) (.empty 1) false
  have values : (start.afterAll overflowing).stack.pointer = 1 ∧
      (start.afterAll overflowing).index = 0x0FE := by
    decide +kernel +revert
  have built : build { memorySize := 0x208, stackDepth := 1, width := 8, height := 1 } =
      .ok start := rfl
  rcases wellFormed_afterAll built overflowing with ⟨wellFormed, fits⟩
  exact ⟨start, built, wellFormed, Int.ofNat.inj fits.stack, values⟩

end Machine

end Chip8
