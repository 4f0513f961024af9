import Chip8.Proofs.Display.Drawing
import Chip8.Proofs.Machine.Arithmetic
import Chip8.Proofs.Machine.ProgramCounter

/-! # What a step leaves alone

The opcode names the parts that an instruction can change. Within two of them, memory and the
registers, its operands say more: the bytes that it stores at the index register, and the single
registers that it sets. All else stays as it was, and the program counter goes on to the next
instruction unless the instruction transfers control, skips or waits.
-/

namespace Chip8

def Alu.setsFlag : Alu → Bool
  | .copy | .or | .and | .xor => false
  | .add | .sub | .shr | .subn | .shl => true

theorem Alu.isSome_flag_apply (operation : Alu) (a b : UInt8) :
    (operation.apply a b).2.isSome = operation.setsFlag := by
  cases operation <;> rfl

def Demand.written : Demand → Nat
  | .write length => length
  | .nothing | .read _ | .push | .pop => 0

def Instruction.Sets : Instruction → Register → Prop
  | ⟨.setByte, (x, _)⟩, register => register = x
  | ⟨.addByte, (x, _)⟩, register => register = x
  | ⟨.random, (x, _)⟩, register => register = x
  | ⟨.readDelay, x⟩, register => register = x
  | ⟨.waitKey, x⟩, register => register = x
  | ⟨.alu operation, (x, _)⟩, register =>
      register = x ∨ operation.setsFlag = true ∧ register = Registers.flagRegister
  | ⟨.draw, _⟩, register => register = Registers.flagRegister
  | ⟨.loadRegisters, x⟩, register => register ≤ (x : Register)
  | _, _ => False

namespace Machine

variable {machine next : Machine} {instruction : Instruction}

def target? (machine : Machine) : Instruction → Option Nat
  | ⟨.ret, _⟩ => machine.stack.toList.getLast?.map (·.toNat)
  | ⟨.jump, address⟩ => some (address : Address).val
  | ⟨.call, address⟩ => some (address : Address).val
  | ⟨.jumpOffset, address⟩ =>
      some (((address : Address).val + machine.v[(0 : Register)].toNat) % 4096)
  | _ => none

/-- What a step that executes an instruction leaves alone, and where it continues. -/
structure Confined (machine : Machine) (instruction : Instruction) (next : Machine) : Prop where
  parts : ∀ part, part ∉ instruction.opcode.writes → SameAt next machine part
  size : next.memory.size = machine.memory.size
  bytes : ∀ address,
    ¬(machine.index.toNat ≤ address ∧
      address < machine.index.toNat + instruction.demand.written) →
    next.memory.byte? address = machine.memory.byte? address
  registers : ∀ register, ¬instruction.Sets register → next.v[register] = machine.v[register]
  onward : instruction.opcode.transfers = false →
    next.pc.toNat = (machine.pc.toNat + machine.stride instruction) % 65536
  transfer : instruction.opcode.transfers = true →
    machine.target? instruction = some next.pc.toNat ∧ next.pc.toNat ≤ Address.greatest

/-! ## Memory -/

theorem size_of_execute (success : machine.execute instruction = .ok next) :
    next.memory.size = machine.memory.size := by
  rcases (machine.execute_effect instruction).memory_cases success with
    same | ⟨data, _, written⟩
  · rw [same]
  · exact (Memory.sameReserved_write written).size

theorem byte?_of_execute (success : machine.execute instruction = .ok next) {address : Nat}
    (outside : ¬(machine.index.toNat ≤ address ∧
      address < machine.index.toNat + instruction.demand.written)) :
    next.memory.byte? address = machine.memory.byte? address := by
  rcases (machine.execute_effect instruction).memory_cases success with
    same | ⟨data, demands, written⟩
  · rw [same]
  · rw [demands] at outside
    rcases Memory.write_eq_ok_iff.mp written with ⟨_, patched⟩
    rw [← patched, Memory.byte?_patch, Int.toNat_natCast]
    exact if_neg fun inside => outside ⟨inside.1, inside.2.1⟩

/-! ## Registers -/

theorem getElem_v_combine {operation : Alu} {x y register : Register}
    (kept : ¬Instruction.Sets ⟨.alu operation, (x, y)⟩ register) :
    (machine.combine operation x y).v[register] = machine.v[register] := by
  have different : register ≠ x := fun same => kept (.inl same)
  cases applied : operation.apply (machine.source operation x y) machine.v[y] with
  | mk result flag =>
      rw [combine_of_apply applied]
      apply Registers.getElem_record_other _ _ _ different
      have flagged := operation.isSome_flag_apply (machine.source operation x y) machine.v[y]
      rw [applied] at flagged
      cases flag with
      | none => exact .inl rfl
      | some bit => exact .inr fun same => kept (.inr ⟨flagged.symm, same⟩)

theorem getElem_v_waitForKey {x register : Register} (different : register ≠ x) :
    (machine.waitForKey x).v[register] = machine.v[register] := by
  rw [waitForKey]
  split
  next => rfl
  next key pressed => exact Registers.getElem_put_of_ne _ _ different

theorem getElem_v_loadRegisters {x register : Register}
    (success : machine.loadRegisters x = .ok next) (above : ¬register ≤ x) :
    next.v[register] = machine.v[register] := by
  rcases map_eq_ok_iff.mp success with ⟨values, readable, rfl⟩
  have length : values.length = x.val + 1 := Memory.length_of_read readable
  have missing : values[register.val]? = none := by
    apply List.getElem?_eq_none
    rw [length]
    exact Nat.lt_of_not_le above
  change (machine.v.replaceFirst values)[register] = _
  rw [Registers.getElem_replaceFirst, missing]
  rfl

theorem getElem_v_of_execute (success : machine.execute instruction = .ok next)
    {register : Register} (kept : ¬instruction.Sets register) :
    next.v[register] = machine.v[register] := by
  by_cases written : Part.registers ∈ instruction.opcode.writes
  · rcases instruction with ⟨opcode, operands⟩
    cases opcode with
    | setByte | addByte | random | readDelay =>
        cases success
        exact Registers.getElem_put_of_ne _ _ kept
    | waitKey =>
        cases success
        exact getElem_v_waitForKey kept
    | alu operation =>
        cases success
        exact getElem_v_combine kept
    | draw =>
        rcases map_eq_ok_iff.mp success with ⟨rows, _, rfl⟩
        exact Registers.getElem_put_of_ne _ _ kept
    | loadRegisters => exact getElem_v_loadRegisters success kept
    | _ => simp [Opcode.writes] at written
  · have same : next.v = machine.v := execute_sameAt success written
    rw [same]

/-! ## The program counter -/

theorem toNat_pc_of_stride (success : machine.advanced.execute instruction = .ok next)
    (onward : instruction.opcode.transfers = false) :
    next.pc.toNat = (machine.pc.toNat + machine.stride instruction) % 65536 := by
  rw [pc_of_execute success onward, UInt16.toNat_add, UInt16.toNat_ofNat']
  exact Nat.add_mod_mod _ _ _

theorem target?_of_execute (bounded : machine.stack.Bounded)
    (success : machine.execute instruction = .ok next)
    (transfers : instruction.opcode.transfers = true) :
    machine.target? instruction = some next.pc.toNat := by
  rcases instruction with ⟨opcode, operands⟩
  cases opcode with
  | ret =>
      rcases map_eq_ok_iff.mp success with ⟨⟨address, stack⟩, popped, rfl⟩
      rw [target?, CallStack.toList_pop bounded popped, List.getLast?_concat]
      rfl
  | jump =>
      cases success
      exact congrArg some (toNat_toWord operands).symm
  | call =>
      rcases map_eq_ok_iff.mp success with ⟨stack, _, rfl⟩
      exact congrArg some (toNat_toWord operands).symm
  | jumpOffset =>
      cases success
      exact congrArg some (toNat_offsetBy _ _).symm
  | _ => cases transfers

/-! ## Main statement -/

theorem confined_of_execute (wellFormed : machine.WellFormed)
    (success : machine.advanced.execute instruction = .ok next) :
    machine.Confined instruction next where
  parts part unwritten := by
    have same : SameAt next machine.advanced part := execute_sameAt success unwritten
    cases part <;> exact same
  size := (size_of_execute success).trans rfl
  bytes _ outside := (byte?_of_execute success outside).trans rfl
  registers _ kept := (getElem_v_of_execute success kept).trans rfl
  onward := toNat_pc_of_stride success
  transfer transfers := by
    have bounded : machine.advanced.stack.Bounded := wellFormed.stack.bounded
    have narrow : machine.advanced.stack.Narrow := wellFormed.narrow
    have target : machine.target? instruction = machine.advanced.target? instruction := rfl
    exact ⟨target.trans (target?_of_execute bounded success transfers),
      pc_of_transfer narrow success transfers⟩

/-- A step of a reachable machine changes no more than its instruction names, and continues where
the instruction says. -/
theorem step_confined {options : Options} {start : Machine} (built : build options = .ok start)
    (events : List Event) {next : Machine} (free : (start.afterAll events).blocked = false)
    (success : (start.afterAll events).step = .ok next) :
    ∃ instruction, (start.afterAll events).Points instruction ∧
      (start.afterAll events).Confined instruction next := by
  have wellFormed : (start.afterAll events).WellFormed :=
    afterAll_preserves WellFormed wellFormed_of_respond (wellFormed_of_build built) events
  rcases step_cases success with ⟨blocked, _⟩ | ⟨_, instruction, points, executed⟩
  · rw [free] at blocked
    cases blocked
  · exact ⟨instruction, points, confined_of_execute wellFormed executed⟩

def storing : List Event :=
  [.load ⟨[0x60, 0xFF, 0xA2, 0x03, 0xF0, 0x33], .standard⟩, .step, .step]

def atSelfStore : Machine :=
  (ofParts 0 (.initial 0x206) (.blank 8 1) (.empty 16) false).afterAll storing

theorem step_confined_atSelfStore :
    ∃ next, atSelfStore.step = .ok next ∧ next.pc.toNat = 0x206 ∧
      next.index = atSelfStore.index ∧
      (∀ register : Register, next.v[register] = atSelfStore.v[register]) ∧
      ∀ address, address < 0x203 →
        next.memory.byte? address = atSelfStore.memory.byte? address := by
  have states : atSelfStore.blocked = false ∧ atSelfStore.pc.toNat = 0x204 ∧
      atSelfStore.index.toNat = 0x203 ∧
      atSelfStore.memory.byte? atSelfStore.pc.toNat = some 0xF0 ∧
      atSelfStore.memory.byte? (atSelfStore.pc.toNat + 1) = some 0x33 ∧
      atSelfStore.step.toOption.isSome = true := by
    decide +kernel
  rcases states with ⟨free, place, pointed, high, low, succeeds⟩
  have built : build { memorySize := 0x206, width := 8, height := 1 } =
      .ok (ofParts 0 (.initial 0x206) (.blank 8 1) (.empty 16) false) := rfl
  have success : atSelfStore.step = .ok (atSelfStore.after .step) := step_eq_after succeeds
  have limits : ∃ instruction, atSelfStore.Points instruction ∧
      atSelfStore.Confined instruction (atSelfStore.after .step) :=
    step_confined built storing free success
  generalize atSelfStore = machine at *
  rcases limits with ⟨instruction, points, confined⟩
  have stores : machine.Points ⟨.storeDecimal, (0 : Register)⟩ := ⟨0xF033, ⟨high, low⟩, rfl⟩
  cases points.unique stores
  have onward : (machine.after .step).pc.toNat = (machine.pc.toNat + 2) % 65536 :=
    confined.onward rfl
  rw [place] at onward
  refine ⟨_, success, onward, confined.parts .index (by decide), ?_, ?_⟩
  · intro register
    exact confined.registers register id
  · intro address below
    refine confined.bytes address fun inside => ?_
    have above : machine.index.toNat ≤ address := inside.1
    omega

end Machine

end Chip8
