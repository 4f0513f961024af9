import Chip8.Proofs.Machine.Histories

/-! # When a step fails

`Fails` lists the conditions under which the next step of a machine fails, each with its fault. The
conditions exclude one another: a word can be missing, be no instruction, or be an instruction that
memory or stack refuses. On reachable machines these are all the failures of a step. The stack
pointer never passes the depth there, so a full stack is one whose pointer equals it.
-/

namespace Chip8

/-! ## The checked parts -/

theorem Memory.read_eq_error_iff (memory : Memory) (address length : Nat) (fault : Fault) :
    memory.read address length = .error fault ↔
      memory.size < address + length ∧ fault = .outOfBounds address length .outside := by
  rw [read]
  split
  next outside =>
    constructor
    · intro failure
      exact ⟨by omega, (Except.error.inj failure).symm⟩
    · intro causes
      rcases causes with ⟨_, rfl⟩
      rfl
  next inside =>
    constructor
    · intro failure
      cases failure
    · intro causes
      rcases causes with ⟨outside, _⟩
      omega

theorem Memory.write_eq_error_iff (memory : Memory) (address : Nat) {data : List UInt8}
    (positive : 0 < data.length) (fault : Fault) :
    memory.write address data = .error fault ↔
      memory.size < address + data.length ∧
          fault = .outOfBounds address data.length .outside ∨
        address + data.length ≤ memory.size ∧ address < reservedEnd ∧
          fault = .outOfBounds address data.length .reserved := by
  have nonempty : data ≠ [] := List.ne_nil_of_length_pos positive
  rw [write]
  split
  next outside =>
    constructor
    · intro failure
      exact .inl ⟨by omega, (Except.error.inj failure).symm⟩
    · intro causes
      rcases causes with ⟨_, rfl⟩ | ⟨inside, _, _⟩
      · rfl
      · omega
  next inside =>
    split
    next reserved =>
      constructor
      · intro failure
        exact .inr ⟨by omega, by omega, (Except.error.inj failure).symm⟩
      · intro causes
        rcases causes with ⟨outside, _⟩ | ⟨_, _, rfl⟩
        · omega
        · rfl
    next allowed =>
      have above : ¬(address : Int) < reservedEnd := fun below => allowed ⟨below, nonempty⟩
      constructor
      · intro failure
        cases failure
      · intro causes
        rcases causes with ⟨outside, _⟩ | ⟨_, below, _⟩
        · omega
        · omega

namespace Machine

/-! ## Instructions that are refused -/

inductive Refuses (machine : Machine) : Demand → Fault → Prop
  | full (full : machine.stack.pointer = machine.stack.depth) :
      Refuses machine .push (.stackOverflow machine.stack.depth)
  | empty (empty : machine.stack.pointer = 0) : Refuses machine .pop .stackUnderflow
  | unreadable {length : Nat} (outside : machine.memory.size < machine.index.toNat + length) :
      Refuses machine (.read length) (.outOfBounds machine.index.toNat length .outside)
  | unwritable {length : Nat} (outside : machine.memory.size < machine.index.toNat + length) :
      Refuses machine (.write length) (.outOfBounds machine.index.toNat length .outside)
  | reserved {length : Nat} (inside : machine.index.toNat + length ≤ machine.memory.size)
      (below : machine.index.toNat < Memory.reservedEnd) :
      Refuses machine (.write length) (.outOfBounds machine.index.toNat length .reserved)

theorem Effect.eq_error_iff {machine : Machine} {demand : Demand}
    {outcome : Except Fault Machine} (effect : machine.Effect demand outcome)
    (bounded : machine.stack.Bounded) (fault : Fault) :
    outcome = .error fault ↔ machine.Refuses demand fault := by
  cases effect with
  | plain =>
      constructor
      · intro failure
        cases failure
      · intro refuses
        cases refuses
  | reads =>
      rw [map_eq_error_iff, Memory.read_eq_error_iff]
      constructor
      · intro causes
        rcases causes with ⟨outside, rfl⟩
        exact .unreadable outside
      · intro refuses
        cases refuses with
        | unreadable outside => exact ⟨outside, rfl⟩
  | writes size positive =>
      subst size
      rw [store, map_eq_error_iff, Memory.write_eq_error_iff _ _ positive]
      constructor
      · intro causes
        rcases causes with ⟨outside, rfl⟩ | ⟨inside, below, rfl⟩
        · exact .unwritable outside
        · exact .reserved inside below
      · intro refuses
        cases refuses with
        | unwritable outside => exact .inl ⟨outside, rfl⟩
        | reserved inside below => exact .inr ⟨inside, below, rfl⟩
  | pushes =>
      rw [map_eq_error_iff, CallStack.push_eq_error_iff bounded]
      constructor
      · intro causes
        rcases causes with ⟨full, rfl⟩
        exact .full full
      · intro refuses
        cases refuses with
        | full full => exact ⟨full, rfl⟩
  | pops =>
      rw [map_eq_error_iff, CallStack.pop_eq_error_iff]
      constructor
      · intro causes
        rcases causes with ⟨empty, rfl⟩
        exact .empty empty
      · intro refuses
        cases refuses with
        | empty empty => exact ⟨empty, rfl⟩

/-! ## Steps that fail -/

/-- Why the next step of a machine that is not blocked fails. -/
inductive Fails (machine : Machine) : Fault → Prop
  | pastEnd (past : machine.memory.size ≤ machine.pc.toNat + 1) :
      Fails machine (.badProgramCounter machine.pc.toNat)
  | noOpcode {word : Word} (holds : machine.Holds word)
      (foreign : ∀ opcode : Opcode, word &&& opcode.fixedBits ≠ opcode.base) :
      Fails machine (.invalidOpcode word.toNat)
  | refused {instruction : Instruction} {fault : Fault} (holds : machine.Holds instruction.encode)
      (refuses : machine.Refuses instruction.demand fault) : Fails machine fault

/-- A refusal depends on memory, stack and index register alone. -/
theorem Refuses.congr {left right : Machine} {demand : Demand} {fault : Fault}
    (memory : left.memory = right.memory) (stack : left.stack = right.stack)
    (index : left.index = right.index) (refuses : left.Refuses demand fault) :
    right.Refuses demand fault := by
  cases refuses with
  | full full =>
      rw [stack] at full ⊢
      exact .full full
  | empty empty =>
      rw [stack] at empty
      exact .empty empty
  | unreadable outside =>
      rw [memory, index] at outside
      rw [index]
      exact .unreadable outside
  | unwritable outside =>
      rw [memory, index] at outside
      rw [index]
      exact .unwritable outside
  | reserved inside below =>
      rw [memory, index] at inside
      rw [index] at below ⊢
      exact .reserved inside below

theorem refuses_advanced_iff {machine : Machine} {demand : Demand} {fault : Fault} :
    machine.advanced.Refuses demand fault ↔ machine.Refuses demand fault :=
  ⟨.congr rfl rfl rfl, .congr rfl rfl rfl⟩

/-- An instruction that is refused is decoded from its word, since `sys` demands nothing. -/
theorem Refuses.points {machine : Machine} {instruction : Instruction} {fault : Fault}
    (refuses : machine.Refuses instruction.demand fault)
    (holds : machine.Holds instruction.encode) : machine.Points instruction := by
  refine ⟨_, holds, Instruction.ofWord?_encode ?_⟩
  intro native
  rcases instruction with ⟨opcode, operands⟩
  cases native
  cases refuses

theorem step_eq_error_iff {machine : Machine} (bounded : machine.stack.Bounded) (fault : Fault) :
    machine.step = .error fault ↔ machine.blocked = false ∧ machine.Fails fault := by
  constructor
  · intro failure
    cases blocked : machine.blocked with
    | true =>
        rw [step_of_blocked blocked] at failure
        cases failure
    | false =>
        refine ⟨rfl, ?_⟩
        rcases machine.fetch_cases with past | ⟨word, holds, foreign⟩ | ⟨instruction, points⟩
        · rw [step_of_past blocked past] at failure
          cases failure
          exact .pastEnd past
        · rw [step_of_foreign blocked holds foreign] at failure
          cases failure
          exact .noOpcode holds (Opcode.ofWord?_eq_none_iff word |>.mp
            (Option.map_eq_none_iff.mp foreign))
        · rw [step_of_points blocked points] at failure
          rcases points with ⟨word, holds, decoded⟩
          rw [← Instruction.encode_of_ofWord? decoded] at holds
          have effect := machine.advanced.execute_effect instruction
          exact .refused holds
            (refuses_advanced_iff.mp ((effect.eq_error_iff bounded fault).mp failure))
  · intro causes
    rcases causes with ⟨free, fails⟩
    cases fails with
    | pastEnd past => exact step_of_past free past
    | noOpcode holds foreign =>
        refine step_of_foreign free holds (Option.map_eq_none_iff.mpr ?_)
        exact (Opcode.ofWord?_eq_none_iff _).mpr foreign
    | @refused instruction _ holds refuses =>
        have effect := machine.advanced.execute_effect instruction
        rw [step_of_points free (refuses.points holds)]
        exact (effect.eq_error_iff bounded fault).mpr (refuses_advanced_iff.mpr refuses)

/-! ## Reachable machines -/

theorem bounded_afterAll {options : Options} {start : Machine}
    (built : build options = .ok start) (events : List Event) :
    (start.afterAll events).stack.Bounded :=
  (clean_afterAll built events).bounded

/-- A step of a reachable machine fails exactly under the listed conditions, with their faults, and
succeeds otherwise. -/
theorem step_fails_iff {options : Options} {start : Machine}
    (built : build options = .ok start) (events : List Event) :
    (∀ fault, (start.afterAll events).step = .error fault ↔
      (start.afterAll events).blocked = false ∧ (start.afterAll events).Fails fault) ∧
    ((∃ next, (start.afterAll events).step = .ok next) ↔
      (start.afterAll events).blocked = true ∨ ∀ fault, ¬(start.afterAll events).Fails fault) := by
  have failure := step_eq_error_iff (bounded_afterAll built events)
  refine ⟨failure, ?_⟩
  constructor
  · intro possible
    rcases possible with ⟨next, success⟩
    cases blocked : (start.afterAll events).blocked with
    | true => exact .inl rfl
    | false =>
        refine .inr fun fault fails => ?_
        rw [(failure fault).mpr ⟨blocked, fails⟩] at success
        cases success
  · intro fine
    cases outcome : (start.afterAll events).step with
    | ok next => exact ⟨next, rfl⟩
    | error fault =>
        rcases (failure fault).mp outcome with ⟨free, fails⟩
        rcases fine with blocked | never
        · rw [blocked] at free
          cases free
        · exact absurd fails (never fault)

theorem step_fails_iff_of_reserved_store :
    ∃ start, build { memorySize := 0x204, width := 8, height := 1 } = .ok start ∧
      (start.afterAll [.load ⟨[0xA1, 0xFF, 0xF0, 0x55], .standard⟩, .step]).step =
        .error (.outOfBounds 0x1FF 1 .reserved) := by
  let start := ofParts 0 (.initial 0x204) (.blank 8 1) (.empty 16) false
  let last := start.afterAll [.load ⟨[0xA1, 0xFF, 0xF0, 0x55], .standard⟩, .step]
  have state : last.blocked = false ∧ last.index.toNat = 0x1FF ∧ last.memory.size = 0x204 ∧
      last.memory.byte? last.pc.toNat = some 0xF0 ∧
      last.memory.byte? (last.pc.toNat + 1) = some 0x55 := by
    decide +kernel +revert
  rcases state with ⟨free, pointed, size, high, low⟩
  have built : build { memorySize := 0x204, width := 8, height := 1 } = .ok start := rfl
  have refuses : last.Refuses (.write 1) (.outOfBounds last.index.toNat 1 .reserved) :=
    .reserved (by omega) (by rw [pointed]; decide)
  rw [pointed] at refuses
  have holds : last.Holds (Instruction.encode ⟨.storeRegisters, (0 : Register)⟩) := ⟨high, low⟩
  have failure := (step_fails_iff built [.load ⟨[0xA1, 0xFF, 0xF0, 0x55], .standard⟩, .step]).1
    (.outOfBounds 0x1FF 1 .reserved)
  exact ⟨start, built, failure.mpr ⟨free, .refused holds refuses⟩⟩

end Machine

end Chip8
