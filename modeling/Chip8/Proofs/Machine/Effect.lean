import Chip8.Proofs.Machine.Step

/-! # What instructions demand and change

Only a few instructions use the checked parts of a machine, its memory and its call stack. What
an instruction demands of them is read off its opcode and operands; it decides how the instruction
can fail and what it can change there.
-/

namespace Chip8

inductive Demand
  | nothing
  | read (length : Nat)
  | write (length : Nat)
  | push
  | pop

namespace Instruction

def demand : Instruction → Demand
  | ⟨.call, _⟩ => .push
  | ⟨.ret, _⟩ => .pop
  | ⟨.draw, (_, _, height)⟩ => .read height.val
  | ⟨.loadRegisters, x⟩ => .read ((x : Register).val + 1)
  | ⟨.storeDecimal, _⟩ => .write 3
  | ⟨.storeRegisters, x⟩ => .write ((x : Register).val + 1)
  | _ => .nothing

theorem length_le_of_demand {instruction : Instruction} {length : Nat}
    (demands : instruction.demand = .write length) : length ≤ 16 := by
  rcases instruction with ⟨opcode, operands⟩
  cases opcode with
  | storeDecimal =>
      cases demands
      decide
  | storeRegisters =>
      cases demands
      exact Register.lt operands
  | _ => cases demands

end Instruction

theorem Registers.length_upTo (registers : Registers) (last : Register) :
    (registers.upTo last).length = last.val + 1 := by
  have bound := last.isLt
  rw [upTo, List.length_take, Vector.length_toList]
  omega

namespace Machine

inductive Effect (machine : Machine) : Demand → Except Fault Machine → Prop
  | plain {next : Machine} (memory : next.memory = machine.memory)
      (stack : next.stack = machine.stack) : Effect machine .nothing (.ok next)
  | reads {length : Nat} {make : List UInt8 → Machine}
      (memory : ∀ bytes, (make bytes).memory = machine.memory)
      (stack : ∀ bytes, (make bytes).stack = machine.stack) :
      Effect machine (.read length)
        ((machine.memory.read machine.index.toNat length).map make)
  | writes {length : Nat} {data : List UInt8} (size : data.length = length)
      (some : 0 < length) : Effect machine (.write length) (machine.store data)
  | pushes {target : Word} :
      Effect machine .push ((machine.stack.push machine.pc.toNat).map fun stack =>
        { machine with stack, pc := target })
  | pops :
      Effect machine .pop (machine.stack.pop.map fun (address, stack) =>
        { machine with stack, pc := address })

@[simp] theorem memory_skipIf (machine : Machine) (condition : Bool) :
    (machine.skipIf condition).memory = machine.memory := by
  cases condition <;> rfl

@[simp] theorem stack_skipIf (machine : Machine) (condition : Bool) :
    (machine.skipIf condition).stack = machine.stack := by
  cases condition <;> rfl

@[simp] theorem memory_waitForKey (machine : Machine) (x : Register) :
    (machine.waitForKey x).memory = machine.memory := by
  rw [waitForKey]
  split <;> rfl

@[simp] theorem stack_waitForKey (machine : Machine) (x : Register) :
    (machine.waitForKey x).stack = machine.stack := by
  rw [waitForKey]
  split <;> rfl

theorem execute_effect (machine : Machine) (instruction : Instruction) :
    Effect machine instruction.demand (machine.execute instruction) := by
  rcases instruction with ⟨opcode, operands⟩
  cases opcode with
  | call => exact .pushes
  | ret => exact .pops
  | draw => exact .reads (fun _ => rfl) (fun _ => rfl)
  | loadRegisters => exact .reads (fun _ => rfl) (fun _ => rfl)
  | storeDecimal => exact .writes rfl (by decide)
  | storeRegisters => exact .writes (Registers.length_upTo _ _) (Nat.succ_pos _)
  | skipEqByte | skipNeByte | skipEq | skipNe | skipKey | skipNoKey =>
      exact .plain (memory_skipIf _ _) (stack_skipIf _ _)
  | waitKey => exact .plain (memory_waitForKey _ _) (stack_waitForKey _ _)
  | _ => exact .plain rfl rfl

/-! ## Memory and stack -/

namespace Effect

variable {machine next : Machine} {demand : Demand} {outcome : Except Fault Machine}

theorem memory_cases (effect : machine.Effect demand outcome) (success : outcome = .ok next) :
    next.memory = machine.memory ∨
      ∃ data, demand = .write data.length ∧
        machine.memory.write machine.index.toNat data = .ok next.memory := by
  cases effect with
  | plain memory =>
      cases success
      exact .inl memory
  | reads memory =>
      rcases map_eq_ok_iff.mp success with ⟨bytes, _, rfl⟩
      exact .inl (memory bytes)
  | writes size =>
      rcases map_eq_ok_iff.mp success with ⟨memory, written, rfl⟩
      exact .inr ⟨_, congrArg Demand.write size.symm, written⟩
  | pushes | pops =>
      rcases map_eq_ok_iff.mp success with ⟨_, _, rfl⟩
      exact .inl rfl

theorem stack_cases (effect : machine.Effect demand outcome) (success : outcome = .ok next) :
    next.stack = machine.stack ∨ machine.stack.push machine.pc.toNat = .ok next.stack ∨
      ∃ address, machine.stack.pop = .ok (address, next.stack) := by
  cases effect with
  | plain _ stack =>
      cases success
      exact .inl stack
  | reads _ stack =>
      rcases map_eq_ok_iff.mp success with ⟨bytes, _, rfl⟩
      exact .inl (stack bytes)
  | writes =>
      rcases map_eq_ok_iff.mp success with ⟨_, _, rfl⟩
      exact .inl rfl
  | pushes =>
      rcases map_eq_ok_iff.mp success with ⟨stack, pushed, rfl⟩
      exact .inr (.inl pushed)
  | pops =>
      rcases map_eq_ok_iff.mp success with ⟨⟨address, stack⟩, popped, rfl⟩
      exact .inr (.inr ⟨address, popped⟩)

end Effect

end Machine

end Chip8
