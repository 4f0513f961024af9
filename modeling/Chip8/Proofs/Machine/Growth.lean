import Chip8.Proofs.Machine.Parts
import Chip8.Proofs.Machine.ReservedArea

/-! # Larger machines

A machine with more memory and a deeper stack does all that a smaller one does: whatever the smaller
one reads lies in the part that both have, and every bound that it keeps to is kept to by the larger
one. The two differ in nothing but the bytes and cells that only the larger one has.
-/

namespace Chip8

def Prolongs {α : Type} (longer shorter : Array α) : Prop :=
  ∀ (index : Nat) (value : α), shorter[index]? = some value → longer[index]? = some value

namespace Prolongs

variable {α : Type} {longer shorter : Array α}

theorem size_le (prolongs : Prolongs longer shorter) : shorter.size ≤ longer.size := by
  cases size : shorter.size with
  | zero => exact Nat.zero_le _
  | succ last =>
      have within : last < shorter.size := by omega
      have found := prolongs last _ (Array.getElem?_eq_getElem within)
      exact (Array.getElem?_eq_some_iff.mp found).1

theorem getElem?_eq (prolongs : Prolongs longer shorter) {index : Nat}
    (within : index < shorter.size) : longer[index]? = shorter[index]? := by
  rw [Array.getElem?_eq_getElem within]
  exact prolongs index _ (Array.getElem?_eq_getElem within)

theorem setIfInBounds (prolongs : Prolongs longer shorter) (place : Nat) (value : α) :
    Prolongs (longer.setIfInBounds place value) (shorter.setIfInBounds place value) := by
  intro index found holds
  have size := prolongs.size_le
  rw [Array.getElem?_setIfInBounds] at holds ⊢
  by_cases written : place = index
  · rw [if_pos written] at holds ⊢
    split at holds
    · rw [if_pos (by omega)]
      exact holds
    · cases holds
  · rw [if_neg written] at holds ⊢
    exact prolongs index found holds

end Prolongs

/-! ## Larger memories -/

namespace Memory

variable {larger smaller : Memory}

def Covers (larger smaller : Memory) : Prop := Prolongs larger.bytes smaller.bytes

theorem covers_initial {size growth : Nat} (le : size ≤ growth) :
    (initial growth).Covers (initial size) := by
  intro address byte found
  change (initial size).byte? address = some byte at found
  change (initial growth).byte? address = some byte
  rw [byte?_initial] at found ⊢
  split at found
  · rw [if_pos (by omega)]
    exact found
  · cases found

theorem Covers.size_le (covers : larger.Covers smaller) : smaller.size ≤ larger.size :=
  Prolongs.size_le covers

theorem Covers.read (covers : larger.Covers smaller) {address length : Nat} {bytes : List UInt8}
    (success : smaller.read address length = .ok bytes) :
    larger.read address length = .ok bytes := by
  have size := covers.size_le
  rcases read_eq_ok_iff.mp success with ⟨⟨nonnegative, some, within⟩, rfl⟩
  refine read_eq_ok_iff.mpr ⟨⟨nonnegative, some, by omega⟩, ?_⟩
  apply List.ext_getElem?
  intro offset
  rw [getElem?_slice, getElem?_slice]
  split
  · apply Prolongs.getElem?_eq covers
    rw [Memory.size] at within
    omega
  · rfl

theorem Covers.patch (covers : larger.Covers smaller) (address : Nat) (data : List UInt8) :
    (larger.patch address data).Covers (smaller.patch address data) := by
  induction data generalizing larger smaller address with
  | nil => exact covers
  | cons byte rest induction => exact induction (Prolongs.setIfInBounds covers address byte) _

theorem Covers.write (covers : larger.Covers smaller) {address : Int} {data : List UInt8}
    {written : Memory} (success : smaller.write address data = .ok written) :
    ∃ grown, larger.write address data = .ok grown ∧ grown.Covers written := by
  have size := covers.size_le
  rcases write_eq_ok_iff.mp success with ⟨⟨nonnegative, within, allowed⟩, rfl⟩
  exact ⟨_, write_eq_ok_iff.mpr ⟨⟨nonnegative, by omega, allowed⟩, rfl⟩, covers.patch _ _⟩

theorem Covers.load (covers : larger.Covers smaller) {image : Image} {loaded : Memory}
    (success : smaller.load image = .ok loaded) :
    ∃ grown, larger.load image = .ok grown ∧ grown.Covers loaded := by
  have size := covers.size_le
  rcases load_eq_ok_iff.mp success with ⟨⟨budget, within⟩, rfl⟩
  exact ⟨_, load_eq_ok_iff.mpr ⟨⟨budget, by omega⟩, rfl⟩, covers.patch _ _⟩

end Memory

/-! ## Deeper stacks -/

namespace CallStack

variable {deeper shallower next : CallStack}

/-- The deeper stack begins with the cells of the shallower one, and as many are in use. -/
structure Covers (deeper shallower : CallStack) : Prop where
  bounded : shallower.Bounded
  pointer : deeper.pointer = shallower.pointer
  cells : Prolongs deeper.cells shallower.cells

theorem covers_empty {depth growth : Nat} (le : depth ≤ growth) :
    (empty growth).Covers (empty depth) := by
  refine ⟨Nat.zero_le _, rfl, ?_⟩
  intro index cell found
  rw [empty, Array.getElem?_replicate] at found ⊢
  split at found
  · rw [if_pos (by omega)]
    exact found
  · cases found

theorem Covers.push (covers : deeper.Covers shallower) {address : Int}
    (success : shallower.push address = .ok next) :
    ∃ grown, deeper.push address = .ok grown ∧ grown.Covers next := by
  have depth : shallower.depth ≤ deeper.depth := covers.cells.size_le
  have sameDepth := depth_push success
  rcases push_cases success with ⟨room, rfl⟩
  refine ⟨_, if_neg (by rw [covers.pointer]; omega), ?_, ?_, ?_⟩
  · rw [Bounded, sameDepth]
    exact room
  · exact congrArg (· + 1) covers.pointer
  · rw [covers.pointer]
    exact covers.cells.setIfInBounds _ _

theorem Covers.pop (covers : deeper.Covers shallower) {address : Word}
    (success : shallower.pop = .ok (address, next)) :
    ∃ grown, deeper.pop = .ok (address, grown) ∧ grown.Covers next := by
  have bounded : shallower.pointer ≤ shallower.cells.size := covers.bounded
  rw [CallStack.pop] at success ⊢
  rw [covers.pointer]
  split at success
  next => cases success
  next pointer used =>
    cases success
    rw [covers.cells.getElem?_eq (by omega)]
    refine ⟨_, rfl, ?_, rfl, covers.cells.setIfInBounds _ _⟩
    change pointer ≤ (shallower.cells.setIfInBounds pointer 0).size
    rw [Array.size_setIfInBounds]
    omega

end CallStack

/-! ## Larger machines -/

namespace Machine

variable {larger smaller next : Machine} {event : Event} {instruction : Instruction}

/-- The machines differ in nothing but what the larger one has of memory and stack beyond the
smaller. -/
structure Covers (larger smaller : Machine) : Prop where
  memory : larger.memory.Covers smaller.memory
  stack : larger.stack.Covers smaller.stack
  rest : larger = { smaller with memory := larger.memory, stack := larger.stack }

theorem Covers.execute_of_ignores (covers : larger.Covers smaller)
    (memory : instruction.opcode.Ignores .memory) (stack : instruction.opcode.Ignores .stack)
    (success : smaller.execute instruction = .ok next) :
    ∃ grown, larger.execute instruction = .ok grown ∧ grown.Covers next := by
  have grafted : larger = (smaller.graft larger .memory).graft larger .stack := covers.rest
  have sameMemory : next.memory = smaller.memory := execute_sameAt success memory.2
  have sameStack : next.stack = smaller.stack := execute_sameAt success stack.2
  refine ⟨(next.graft larger .memory).graft larger .stack, ?_, ?_, ?_, rfl⟩
  · conv => lhs; rw [grafted]
    rw [execute_graft _ _ stack, execute_graft _ _ memory, success]
    rfl
  · rw [sameMemory]
    exact covers.memory
  · rw [sameStack]
    exact covers.stack

theorem Covers.execute (covers : larger.Covers smaller)
    (success : smaller.execute instruction = .ok next) :
    ∃ grown, larger.execute instruction = .ok grown ∧ grown.Covers next := by
  rcases instruction with ⟨opcode, operands⟩
  by_cases plain : opcode.Ignores .memory ∧ opcode.Ignores .stack
  · exact covers.execute_of_ignores plain.1 plain.2 success
  · rcases covers with ⟨memory, stack, rest⟩
    generalize larger.memory = grownMemory at memory rest
    generalize larger.stack = grownStack at stack rest
    subst rest
    cases opcode with
    | draw | loadRegisters =>
        rcases map_eq_ok_iff.mp success with ⟨bytes, found, rfl⟩
        exact ⟨_, map_eq_ok_iff.mpr ⟨bytes, memory.read found, rfl⟩, memory, stack, rfl⟩
    | storeDecimal | storeRegisters =>
        rcases map_eq_ok_iff.mp success with ⟨written, stored, rfl⟩
        rcases memory.write stored with ⟨grown, stores, covers⟩
        exact ⟨_, map_eq_ok_iff.mpr ⟨grown, stores, rfl⟩, covers, stack, rfl⟩
    | call =>
        rcases map_eq_ok_iff.mp success with ⟨next, pushed, rfl⟩
        rcases stack.push pushed with ⟨grown, pushes, covers⟩
        exact ⟨_, map_eq_ok_iff.mpr ⟨grown, pushes, rfl⟩, memory, covers, rfl⟩
    | ret =>
        rcases map_eq_ok_iff.mp success with ⟨⟨address, next⟩, popped, rfl⟩
        rcases stack.pop popped with ⟨grown, pops, covers⟩
        exact ⟨_, map_eq_ok_iff.mpr ⟨(address, grown), pops, rfl⟩, memory, covers, rfl⟩
    | _ => exact absurd (by simp [Opcode.Ignores, Opcode.reads, Opcode.writes]) plain

theorem Covers.holds (covers : larger.Covers smaller) {word : Word} (holds : smaller.Holds word) :
    larger.Holds word := by
  have pc : larger.pc = smaller.pc := by rw [covers.rest]
  rw [Holds, pc]
  exact ⟨covers.memory _ _ holds.1, covers.memory _ _ holds.2⟩

theorem Covers.blocked_eq (covers : larger.Covers smaller) : larger.blocked = smaller.blocked := by
  rw [covers.rest]
  rfl

/-- Moving both machines in the same way keeps one larger than the other. -/
theorem Covers.advanced (covers : larger.Covers smaller) :
    larger.advanced.Covers smaller.advanced := by
  refine ⟨covers.memory, covers.stack, ?_⟩
  rw [Machine.advanced, covers.rest]
  rfl

theorem Covers.step (covers : larger.Covers smaller) (success : smaller.step = .ok next) :
    ∃ grown, larger.step = .ok grown ∧ grown.Covers next := by
  rcases step_cases success with ⟨blocked, rfl⟩ | ⟨free, instruction, ⟨word, holds, decoded⟩, executed⟩
  · exact ⟨larger, step_of_blocked (covers.blocked_eq.trans blocked), covers⟩
  · have points : larger.Points instruction := ⟨word, covers.holds holds, decoded⟩
    rw [step_of_points (covers.blocked_eq.trans free) points]
    exact covers.advanced.execute executed

theorem Covers.load (covers : larger.Covers smaller) {image : Image}
    (success : smaller.load image = .ok next) :
    ∃ grown, larger.load image = .ok grown ∧ grown.Covers next := by
  rcases map_eq_ok_iff.mp success with ⟨copied, copies, rfl⟩
  rcases covers.memory.load copies with ⟨grown, loads, memory⟩
  refine ⟨_, map_eq_ok_iff.mpr ⟨grown, loads, rfl⟩, memory, covers.stack, ?_⟩
  rw [covers.rest]

theorem Covers.respond (covers : larger.Covers smaller)
    (success : smaller.respond event = .ok next) :
    ∃ grown, larger.respond event = .ok grown ∧ grown.Covers next := by
  cases event with
  | step => exact covers.step success
  | execute instruction => exact covers.execute success
  | tick =>
      cases success
      refine ⟨_, rfl, covers.memory, covers.stack, ?_⟩
      rw [Machine.tick, covers.rest]
      rfl
  | setKeys bitmap =>
      cases success
      refine ⟨_, rfl, covers.memory, covers.stack, ?_⟩
      rw [Machine.setKeys, covers.rest]
      rfl
  | load image => exact covers.load success

theorem Covers.respondAll (covers : larger.Covers smaller) {events : List Event}
    (success : smaller.respondAll events = .ok next) :
    ∃ grown, larger.respondAll events = .ok grown ∧ grown.Covers next := by
  induction events generalizing larger smaller with
  | nil =>
      cases success
      exact ⟨larger, rfl, covers⟩
  | cons event rest induction =>
      rcases respondAll_cons_iff.mp success with ⟨middle, first, others⟩
      rcases covers.respond first with ⟨grown, responds, covers⟩
      rcases induction covers others with ⟨last, succeeds, covers⟩
      exact ⟨last, respondAll_cons_iff.mpr ⟨grown, responds, succeeds⟩, covers⟩

theorem covers_of_build {options : Options} {memorySize stackDepth : Int}
    (memory : options.memorySize ≤ memorySize) (depth : options.stackDepth ≤ stackDepth)
    (built : build options = .ok smaller)
    (builtLarger : build { options with memorySize, stackDepth } = .ok larger) :
    larger.Covers smaller := by
  rcases parts_of_build built with
    ⟨smallMemory, display, shallow, memoryCreated, displayCreated, stackCreated, rfl⟩
  rcases parts_of_build builtLarger with
    ⟨largeMemory, sameDisplay, deep, largeCreated, sameCreated, deepCreated, rfl⟩
  rw [displayCreated] at sameCreated
  cases sameCreated
  rcases Memory.create_cases memoryCreated with ⟨smallSize, smallShape⟩
  rcases CallStack.create_cases stackCreated with ⟨shallowDepth, shallowShape⟩
  have largeSize : (largeMemory.size : Int) = memorySize := (Memory.create_cases largeCreated).1
  have deepDepth : (deep.depth : Int) = stackDepth := (CallStack.create_cases deepCreated).1
  refine ⟨?_, ?_, rfl⟩
  · change largeMemory.Covers smallMemory
    rw [smallShape, (Memory.create_cases largeCreated).2]
    exact Memory.covers_initial (by omega)
  · change deep.Covers shallow
    rw [shallowShape, (CallStack.create_cases deepCreated).2]
    exact CallStack.covers_empty (by omega)

/-- Events that all succeed on a machine all succeed on one that differs from it by more memory and
a deeper stack, and after each of them the machines still differ in nothing else. -/
theorem succeeds_on_larger {options : Options} {memorySize stackDepth : Int}
    (memory : options.memorySize ≤ memorySize) (depth : options.stackDepth ≤ stackDepth)
    (built : build options = .ok smaller)
    (builtLarger : build { options with memorySize, stackDepth } = .ok larger)
    {events : List Event} {last : Machine} (success : smaller.respondAll events = .ok last) :
    ∀ done, done <+: events → ∃ before after, smaller.respondAll done = .ok before ∧
      larger.respondAll done = .ok after ∧ after.Covers before := by
  rintro done ⟨rest, rfl⟩
  rcases respondAll_append_iff.mp success with ⟨before, succeeds, _⟩
  rcases (covers_of_build memory depth built builtLarger).respondAll succeeds with
    ⟨after, grown, covers⟩
  exact ⟨before, after, succeeds, grown, covers⟩

def filling : List Event :=
  [.load ⟨[0x22, 0x04, 0x12, 0x02, 0x00, 0xEE], .standard⟩, .step, .tick, .step, .setKeys 5]

theorem succeeds_on_larger_filling :
    ∃ small large last after,
      build { memorySize := 0x206, stackDepth := 1, width := 8, height := 1 } = .ok small ∧
      build { memorySize := 0x300, stackDepth := 2, width := 8, height := 1 } = .ok large ∧
      small.respondAll filling = .ok last ∧ large.respondAll filling = .ok after ∧
      after.Covers last := by
  let small := ofParts 0 (.initial 0x206) (.blank 8 1) (.empty 1) false
  let large := ofParts 0 (.initial 0x300) (.blank 8 1) (.empty 2) false
  have succeeds : (small.respondAll filling).toOption.isSome = true := by
    decide +kernel +revert
  cases success : small.respondAll filling with
  | error fault =>
      rw [success] at succeeds
      cases succeeds
  | ok last =>
      have built : build { memorySize := 0x206, stackDepth := 1, width := 8, height := 1 } =
          .ok small := rfl
      have builtLarger : build { memorySize := 0x300, stackDepth := 2, width := 8, height := 1 } =
          .ok large := rfl
      rcases succeeds_on_larger (by decide) (by decide) built builtLarger success filling
        (List.prefix_refl _) with ⟨before, after, succeeded, grown, covers⟩
      rw [success] at succeeded
      cases succeeded
      exact ⟨small, large, last, after, built, builtLarger, success, grown, covers⟩

end Machine

end Chip8
