import Chip8.Proofs.Machine.Step

/-! # Parts of a machine

The state of a machine apart from its program counter falls into parts, and each opcode names the
parts that it reads and those that it changes. An instruction leaves every other part as it was,
and a part that it neither reads nor changes may hold anything: the instruction does the same.
-/

namespace Chip8

inductive Part
  | memory
  | stack
  | display
  | registers
  | index
  | delay
  | sound
  | keypad
  | waiting
  | random
  | option
  deriving DecidableEq, Repr

namespace Opcode

def reads : Opcode → List Part
  | .clearScreen => [.display]
  | .ret | .call => [.stack]
  | .skipEqByte | .skipNeByte | .skipEq | .skipNe | .addByte => [.registers]
  | .alu _ => [.registers, .option]
  | .jumpOffset | .setDelay | .setSound | .pointFont => [.registers]
  | .random => [.random]
  | .draw => [.memory, .display, .registers, .index]
  | .skipKey | .skipNoKey => [.registers, .keypad]
  | .readDelay => [.delay]
  | .waitKey => [.keypad]
  | .addIndex => [.registers, .index]
  | .storeDecimal | .storeRegisters => [.memory, .registers, .index]
  | .loadRegisters => [.memory, .index]
  | .sys | .jump | .setByte | .setIndex => []

def writes : Opcode → List Part
  | .clearScreen => [.display]
  | .ret | .call => [.stack]
  | .setByte | .addByte | .alu _ | .readDelay | .loadRegisters => [.registers]
  | .setIndex | .addIndex | .pointFont => [.index]
  | .random => [.registers, .random]
  | .draw => [.display, .registers]
  | .waitKey => [.registers, .waiting]
  | .setDelay => [.delay]
  | .setSound => [.sound]
  | .storeDecimal | .storeRegisters => [.memory]
  | .sys | .jump | .jumpOffset | .skipEqByte | .skipNeByte | .skipEq | .skipNe | .skipKey
  | .skipNoKey => []

def Ignores (opcode : Opcode) (part : Part) : Prop := part ∉ opcode.reads ∧ part ∉ opcode.writes

end Opcode

namespace Machine

variable {machine next : Machine} {instruction : Instruction} {part : Part}

def SameAt (left right : Machine) : Part → Prop
  | .memory => left.memory = right.memory
  | .stack => left.stack = right.stack
  | .display => left.display = right.display
  | .registers => left.v = right.v
  | .index => left.index = right.index
  | .delay => left.delay = right.delay
  | .sound => left.sound = right.sound
  | .keypad => left.keypad = right.keypad
  | .waiting => left.waiting = right.waiting
  | .random => left.random = right.random
  | .option => left.shiftUsesY = right.shiftUsesY

/-- The machine with one part taken from another. -/
def graft (machine donor : Machine) : Part → Machine
  | .memory => { machine with memory := donor.memory }
  | .stack => { machine with stack := donor.stack }
  | .display => { machine with display := donor.display }
  | .registers => { machine with v := donor.v }
  | .index => { machine with index := donor.index }
  | .delay => { machine with delay := donor.delay }
  | .sound => { machine with sound := donor.sound }
  | .keypad => { machine with keypad := donor.keypad }
  | .waiting => { machine with waiting := donor.waiting }
  | .random => { machine with random := donor.random }
  | .option => { machine with shiftUsesY := donor.shiftUsesY }

/-! ## Parts that are not written -/

private theorem skipIf_sameAt (machine : Machine) (condition : Bool) (part : Part) :
    SameAt (machine.skipIf condition) machine part := by
  cases condition <;> cases part <;> rfl

/-- An instruction leaves the parts as they are that its opcode does not change. -/
theorem execute_sameAt (success : machine.execute instruction = .ok next) :
    part ∉ instruction.opcode.writes → SameAt next machine part := by
  rcases instruction with ⟨opcode, operands⟩
  cases opcode with
  | skipEqByte | skipNeByte | skipEq | skipNe | skipKey | skipNoKey =>
      cases success
      intro _
      exact skipIf_sameAt _ _ _
  | waitKey =>
      cases success
      rw [waitForKey]
      split <;> cases part <;> simp [Opcode.writes, SameAt]
  | ret | call | draw | storeDecimal | storeRegisters | loadRegisters =>
      rcases map_eq_ok_iff.mp success with ⟨_, _, rfl⟩
      cases part <;> simp [Opcode.writes, SameAt, jump]
  | _ =>
      cases success
      cases part <;> simp [Opcode.writes, SameAt, jump, setRegister, combine, randomize]

theorem keypad_of_execute (success : machine.execute instruction = .ok next) :
    next.keypad = machine.keypad := by
  have unwritten : Part.keypad ∉ instruction.opcode.writes := by
    cases instruction.opcode <;> simp [Opcode.writes]
  exact execute_sameAt success unwritten

theorem option_of_execute (success : machine.execute instruction = .ok next) :
    next.shiftUsesY = machine.shiftUsesY := by
  have unwritten : Part.option ∉ instruction.opcode.writes := by
    cases instruction.opcode <;> simp [Opcode.writes]
  exact execute_sameAt success unwritten

theorem waiting_of_execute (success : machine.execute instruction = .ok next)
    (other : instruction.opcode ≠ .waitKey) : next.waiting = machine.waiting := by
  have unwritten : Part.waiting ∉ instruction.opcode.writes := by
    cases named : instruction.opcode <;> simp_all [Opcode.writes]
  exact execute_sameAt success unwritten

/-! ## Parts that do not matter -/

theorem map_map {ε α β γ : Type} (result : Except ε α) (first : α → β) (second : β → γ) :
    (result.map first).map second = result.map fun value => second (first value) := by
  cases result <;> rfl

private theorem skipIf_graft (machine donor : Machine) (condition : Bool) (part : Part) :
    (machine.skipIf condition).graft donor part = (machine.graft donor part).skipIf condition := by
  cases condition <;> cases part <;> rfl

/-- An instruction does the same whatever stands in a part that its opcode ignores. -/
theorem execute_graft (machine donor : Machine) :
    instruction.opcode.Ignores part → (machine.graft donor part).execute instruction =
      (machine.execute instruction).map fun next => next.graft donor part := by
  rcases instruction with ⟨opcode, operands⟩
  cases opcode with
  | skipEqByte | skipNeByte | skipEq | skipNe | skipKey | skipNoKey =>
      cases part <;>
        simp [Opcode.Ignores, Opcode.reads, Opcode.writes, execute, Except.map, skipIf_graft] <;>
        rfl
  | waitKey =>
      cases pressed : machine.keypad.lowest? <;> cases part <;>
        simp [Opcode.Ignores, Opcode.reads, Opcode.writes, execute, Except.map, waitForKey, graft,
          pressed]
  | ret | call | draw | storeDecimal | storeRegisters | loadRegisters =>
      cases part <;>
        simp [Opcode.Ignores, Opcode.reads, Opcode.writes, execute, graft, drawSprite, store,
          loadRegisters, map_map, jump]
  | _ =>
      cases part <;>
        simp [Opcode.Ignores, Opcode.reads, Opcode.writes, execute, graft, Except.map, jump,
          setRegister, combine, randomize, source]

/-! ## Steps -/

def Avoids (machine : Machine) (opcodes : List Opcode) : Prop :=
  machine.blocked = false →
    ∀ instruction, machine.Points instruction → instruction.opcode ∉ opcodes

theorem avoids_of_points {opcodes : List Opcode} (points : machine.Points instruction)
    (other : instruction.opcode ∉ opcodes) : machine.Avoids opcodes := by
  intro _ pointed pointsToo
  rw [pointsToo.unique points]
  exact other

@[simp] theorem pc_graft (machine donor : Machine) (part : Part) :
    (machine.graft donor part).pc = machine.pc := by
  cases part <;> rfl

theorem memory_graft (machine donor : Machine) (data : part ≠ .memory) :
    (machine.graft donor part).memory = machine.memory := by
  cases part with
  | memory => exact absurd rfl data
  | _ => rfl

theorem advanced_graft (machine donor : Machine) (part : Part) :
    (machine.graft donor part).advanced = machine.advanced.graft donor part := by
  cases part <;> rfl

theorem holds_graft_iff {donor : Machine} (data : part ≠ .memory) {word : Word} :
    (machine.graft donor part).Holds word ↔ machine.Holds word := by
  rw [Holds, Holds, memory_graft machine donor data, pc_graft]

theorem points_graft_iff {donor : Machine} (data : part ≠ .memory) :
    (machine.graft donor part).Points instruction ↔ machine.Points instruction := by
  simp only [Points, holds_graft_iff data]

/-- A step does the same whatever stands in a part that its instruction ignores. -/
theorem step_graft (machine donor : Machine) (data : part ≠ .memory)
    (blocked : (machine.graft donor part).blocked = machine.blocked)
    (ignored : machine.blocked = false →
      ∀ instruction, machine.Points instruction → instruction.opcode.Ignores part) :
    (machine.graft donor part).step = machine.step.map fun next => next.graft donor part := by
  cases free : machine.blocked with
  | true =>
      rw [step_of_blocked free, step_of_blocked (blocked.trans free)]
      rfl
  | false =>
      have freeToo := blocked.trans free
      rcases machine.fetch_cases with past | ⟨word, holds, foreign⟩ | ⟨instruction, points⟩
      · have pastToo : (machine.graft donor part).memory.size ≤
            (machine.graft donor part).pc.toNat + 1 := by
          rw [memory_graft machine donor data, pc_graft]
          exact past
        rw [step_of_past free past, step_of_past freeToo pastToo, pc_graft]
        rfl
      · rw [step_of_foreign free holds foreign,
          step_of_foreign freeToo ((holds_graft_iff data).mpr holds) foreign]
        rfl
      · rw [step_of_points free points, step_of_points freeToo ((points_graft_iff data).mpr points),
          advanced_graft]
        exact execute_graft _ _ (ignored free instruction points)

theorem step_sameAt (success : machine.step = .ok next)
    (unwritten : machine.blocked = false →
      ∀ instruction, machine.Points instruction → part ∉ instruction.opcode.writes) :
    SameAt next machine part := by
  rcases step_cases success with ⟨_, rfl⟩ | ⟨free, instruction, points, executed⟩
  · cases part <;> rfl
  · have same : SameAt next machine.advanced part :=
      execute_sameAt executed (unwritten free instruction points)
    cases part <;> exact same

end Machine

end Chip8
