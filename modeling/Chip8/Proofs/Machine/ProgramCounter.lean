import Chip8.Proofs.Machine.WellFormed

/-! # The reach of the program counter

A store begins at an address of twelve bits and is no longer than the registers, and images end with
the standard address space, so memory is zero from `0x100F` on. A zero is not the first byte of a
skip, and all other instructions that continue behind themselves end within memory. The program
counter therefore never gets far past the end of memory, and as long as memory is smaller than
65536 bytes, none of its sums is cut: running or skipping past the end is noticed there.
-/

namespace Chip8

namespace Memory

variable {memory written loaded : Memory}

/-- There are only zeros where no store and no image reaches. -/
def Blank (memory : Memory) : Prop :=
  ∀ address byte, 0x100F ≤ address → memory.byte? address = some byte → byte = 0

theorem blank_initial (size : Nat) : (initial size).Blank := by
  intro address byte above found
  have font : Font.stop ≤ 0x100F := by decide
  rw [byte?_initial, newByte_of_stop_le (Nat.le_trans font above)] at found
  split at found
  · exact (Option.some.inj found).symm
  · cases found

theorem Blank.patch (blank : memory.Blank) {address : Nat} {data : List UInt8}
    (below : address + data.length ≤ 0x100F) : (memory.patch address data).Blank := by
  intro index byte above found
  rw [byte?_patch, if_neg (by omega)] at found
  exact blank index byte above found

theorem Blank.write (blank : memory.Blank) {address : Nat} {data : List UInt8}
    (small : address ≤ Address.greatest) (short : data.length ≤ 16)
    (success : memory.write address data = .ok written) : written.Blank := by
  rcases write_eq_ok_iff.mp success with ⟨_, rfl⟩
  rw [Address.greatest] at small
  exact blank.patch (by omega)

theorem Blank.load (blank : memory.Blank) {image : Image}
    (success : memory.load image = .ok loaded) : loaded.Blank := by
  rcases load_eq_ok_iff.mp success with ⟨⟨budget, _⟩, rfl⟩
  have top := image.variant.base_add_budget
  rw [Image.size] at budget
  exact blank.patch (by rw [Image.base]; omega)

end Memory

theorem Instruction.system_of_high {word : Word} {instruction : Instruction} (zero : word.high = 0)
    (decoded : ofWord? word = some instruction) :
    instruction.opcode = .clearScreen ∨ instruction.opcode = .ret ∨ instruction.opcode = .sys := by
  have small : word.toNat / 256 = 0 := by
    have bound := word.toNat_lt
    have value : word.high.toNat = 0 := congrArg UInt8.toNat zero
    rw [Word.high, UInt8.toNat_ofNat'] at value
    omega
  have family : word.family = 0 := by
    rw [Word.family]
    omega
  rw [ofWord?, Opcode.ofWord?, family] at decoded
  cases decoded
  change Opcode.ofSystemWord word = _ ∨ Opcode.ofSystemWord word = _ ∨
    Opcode.ofSystemWord word = _
  rw [Opcode.ofSystemWord]
  split
  · exact .inl rfl
  · split
    · exact .inr (.inl rfl)
    · exact .inr (.inr rfl)

def Opcode.transfers : Opcode → Bool
  | .ret | .jump | .call | .jumpOffset => true
  | _ => false

namespace Machine

variable {machine next : Machine} {event : Event} {instruction : Instruction}

def skips (machine : Machine) : Instruction → Bool
  | ⟨.skipEqByte, (x, byte)⟩ => machine.v[x] == byte
  | ⟨.skipNeByte, (x, byte)⟩ => machine.v[x] != byte
  | ⟨.skipEq, (x, y)⟩ => machine.v[x] == machine.v[y]
  | ⟨.skipNe, (x, y)⟩ => machine.v[x] != machine.v[y]
  | ⟨.skipKey, x⟩ => machine.keypad.isDown (lastDigit machine.v[(x : Register)])
  | ⟨.skipNoKey, x⟩ => !machine.keypad.isDown (lastDigit machine.v[(x : Register)])
  | _ => false

def stays (machine : Machine) : Instruction → Bool
  | ⟨.waitKey, _⟩ => !machine.keypad.anyDown
  | _ => false

/-- How far an instruction takes the program counter if it does not transfer control. -/
def stride (machine : Machine) (instruction : Instruction) : Nat :=
  if machine.stays instruction then 0 else if machine.skips instruction then 4 else 2

/-! ## Where an instruction continues -/

theorem pc_skipIf (machine : Machine) (condition : Bool) :
    (machine.advanced.skipIf condition).pc =
      machine.pc + UInt16.ofNat (if condition then 4 else 2) := by
  cases condition with
  | false => rfl
  | true => exact UInt16.add_assoc _ _ _

theorem pc_waitForKey (machine : Machine) (x : Register) :
    (machine.advanced.waitForKey x).pc =
      machine.pc + UInt16.ofNat (if !machine.keypad.anyDown then 0 else 2) := by
  cases pressed : machine.keypad.lowest? with
  | none => simp [waitForKey, advanced, Keypad.anyDown, pressed]
  | some key => simp [waitForKey, advanced, Keypad.anyDown, pressed]

theorem pc_of_execute (success : machine.advanced.execute instruction = .ok next)
    (onward : instruction.opcode.transfers = false) :
    next.pc = machine.pc + UInt16.ofNat (machine.stride instruction) := by
  rcases instruction with ⟨opcode, operands⟩
  cases opcode with
  | ret | jump | call | jumpOffset => cases onward
  | skipEqByte | skipNeByte | skipEq | skipNe | skipKey | skipNoKey =>
      cases success
      exact pc_skipIf machine _
  | waitKey =>
      cases success
      exact pc_waitForKey machine operands
  | draw | storeDecimal | storeRegisters | loadRegisters =>
      rcases map_eq_ok_iff.mp success with ⟨_, _, rfl⟩
      rfl
  | _ =>
      cases success
      rfl

theorem pc_of_transfer (narrow : machine.stack.Narrow)
    (success : machine.execute instruction = .ok next)
    (transfers : instruction.opcode.transfers = true) : next.pc.toNat ≤ Address.greatest := by
  rcases instruction with ⟨opcode, operands⟩
  cases opcode with
  | ret =>
      rcases map_eq_ok_iff.mp success with ⟨⟨address, stack⟩, popped, rfl⟩
      exact narrow.toNat_popped_le popped
  | jump =>
      cases success
      exact toNat_toWord_le operands
  | call =>
      rcases map_eq_ok_iff.mp success with ⟨stack, _, rfl⟩
      exact toNat_toWord_le operands
  | jumpOffset =>
      cases success
      exact toNat_offsetBy_le _ _
  | _ => cases transfers

/-! ## The invariant -/

structure InReach (machine : Machine) : Prop where
  wellFormed : machine.WellFormed
  small : machine.memory.size ≤ 65535
  blank : machine.memory.Blank
  pc : machine.pc.toNat ≤ max 0x1012 machine.memory.size

theorem toNat_pc_lt_of_skips (blank : machine.memory.Blank) (points : machine.Points instruction)
    (skips : machine.skips instruction = true) : machine.pc.toNat < 0x100F := by
  rcases points with ⟨word, holds, decoded⟩
  apply Nat.lt_of_not_le
  intro above
  have zero : word.high = 0 := blank _ _ above holds.1
  have system := Instruction.system_of_high zero decoded
  rcases instruction with ⟨opcode, operands⟩
  rcases system with rfl | rfl | rfl <;> cases skips

theorem toNat_pc_add_stride_le (blank : machine.memory.Blank)
    (points : machine.Points instruction) :
    machine.pc.toNat + machine.stride instruction ≤ max 0x1012 machine.memory.size := by
  have within := points.holds.within
  rw [stride]
  split
  · omega
  · split
    next skips =>
      have place := toNat_pc_lt_of_skips blank points skips
      omega
    next => omega

theorem toNat_pc_of_execute (small : machine.memory.size ≤ 65535) (blank : machine.memory.Blank)
    (points : machine.Points instruction)
    (success : machine.advanced.execute instruction = .ok next)
    (onward : instruction.opcode.transfers = false) :
    next.pc.toNat = machine.pc.toNat + machine.stride instruction := by
  have bound := toNat_pc_add_stride_le blank points
  rw [pc_of_execute success onward, UInt16.toNat_add, UInt16.toNat_ofNat']
  omega

theorem toNat_pc_of_step (reach : machine.InReach) (success : machine.step = .ok next) :
    next.pc.toNat ≤ max 0x1012 machine.memory.size := by
  rcases step_cases success with ⟨_, rfl⟩ | ⟨_, instruction, points, executed⟩
  · exact reach.pc
  · cases transfers : instruction.opcode.transfers with
    | true =>
        have narrow : machine.advanced.stack.Narrow := reach.wellFormed.narrow
        have target := pc_of_transfer narrow executed transfers
        rw [Address.greatest] at target
        omega
    | false =>
        rw [toNat_pc_of_execute reach.small reach.blank points executed transfers]
        exact toNat_pc_add_stride_le reach.blank points

theorem toNat_pc_of_load {image : Image} (success : machine.load image = .ok next) :
    next.pc.toNat ≤ 0x1012 := by
  rcases map_eq_ok_iff.mp success with ⟨memory, _, rfl⟩
  change (UInt16.ofNat image.base).toNat ≤ 0x1012
  rw [Image.base]
  cases image.variant <;> decide

theorem blank_of_respond (wellFormed : machine.WellFormed) (blank : machine.memory.Blank)
    (success : machine.respond event = .ok next) : next.memory.Blank := by
  rcases memory_of_respond success with same | ⟨data, short, written⟩ | ⟨image, loaded⟩
  · rw [same]
    exact blank
  · exact blank.write wellFormed.index short written
  · exact blank.load loaded

theorem inReach_of_respond (unforced : event.isForced = false) (reach : machine.InReach)
    (success : machine.respond event = .ok next) : next.InReach := by
  have size : next.memory.size = machine.memory.size := (sameReserved_of_respond success).size
  refine ⟨wellFormed_of_respond reach.wellFormed success, by rw [size]; exact reach.small,
    blank_of_respond reach.wellFormed reach.blank success, ?_⟩
  rw [size]
  cases event with
  | step => exact toNat_pc_of_step reach success
  | execute => cases unforced
  | tick | setKeys =>
      cases success
      exact reach.pc
  | load image => exact Nat.le_trans (toNat_pc_of_load success) (Nat.le_max_left _ _)

theorem inReach_of_build {options : Options} {start : Machine}
    (built : build options = .ok start) (small : options.memorySize ≤ 65535) : start.InReach := by
  have size := (fits_of_build built).memory
  refine ⟨wellFormed_of_build built, by omega, ?_, ?_⟩
  · rcases parts_of_build built with ⟨memory, display, stack, created, _, _, rfl⟩
    change memory.Blank
    rw [(Memory.create_cases created).2]
    exact Memory.blank_initial _
  · rcases parts_of_build built with ⟨memory, display, stack, _, _, _, rfl⟩
    change (UInt16.ofNat Variant.standard.base).toNat ≤ _
    exact Nat.le_trans (by decide) (Nat.le_max_left _ _)

/-! ## Sums -/

structure CountsExactly (machine : Machine) : Prop where
  fetch : ∀ word fetched, machine.fetch = .ok (word, fetched) →
    machine.pc.toNat + 2 < 65536 ∧ fetched.pc.toNat = machine.pc.toNat + 2
  skip : ∀ instruction, machine.Points instruction → machine.skips instruction = true →
    machine.advanced.pc.toNat + 2 < 65536
  wait : ∀ x, machine.Points ⟨.waitKey, x⟩ → 2 ≤ machine.advanced.pc.toNat
  onward : ∀ instruction next, machine.blocked = false → machine.Points instruction →
    instruction.opcode.transfers = false → machine.step = .ok next →
      next.pc.toNat = machine.pc.toNat + machine.stride instruction
  past : ∀ instruction next, machine.blocked = false → machine.Points instruction →
    instruction.opcode.transfers = false → machine.step = .ok next →
      machine.memory.size ≤ machine.pc.toNat + machine.stride instruction + 1 →
        ∀ count, machine.steps (count + 2) =
          (next, some (.badProgramCounter (machine.pc.toNat + machine.stride instruction)))

theorem free_of_execute (free : machine.blocked = false)
    (success : machine.advanced.execute instruction = .ok next)
    (leaves : machine.stays instruction = false) : next.blocked = false := by
  have keypad := keypad_of_execute success
  rcases instruction with ⟨opcode, operands⟩
  by_cases waits : opcode = .waitKey
  · subst waits
    have pressed : next.keypad.anyDown = true := by
      have down : (!machine.advanced.keypad.anyDown) = false := leaves
      rw [keypad]
      simpa using down
    rw [blocked, pressed]
    exact Bool.and_false _
  · rw [blocked, keypad, waiting_of_execute success waits]
    exact free

theorem toNat_pc_advanced (small : machine.memory.size ≤ 65535)
    (within : machine.pc.toNat + 1 < machine.memory.size) :
    machine.advanced.pc.toNat = machine.pc.toNat + 2 := by
  have sum : machine.advanced.pc.toNat = (machine.pc.toNat + 2) % 65536 :=
    UInt16.toNat_add machine.pc 2
  omega

/-- A machine in reach that goes on past the end of memory reports the address behind it. -/
theorem step_of_stride_past (reach : machine.InReach) (free : machine.blocked = false)
    (points : machine.Points instruction) (onward : instruction.opcode.transfers = false)
    (success : machine.step = .ok next)
    (past : machine.memory.size ≤ machine.pc.toNat + machine.stride instruction + 1) :
    next.step = .error (.badProgramCounter (machine.pc.toNat + machine.stride instruction)) := by
  have within := points.holds.within
  have responds : machine.respond .step = .ok next := success
  have size : next.memory.size = machine.memory.size := (sameReserved_of_respond responds).size
  rw [step_of_points free points] at success
  have place := toNat_pc_of_execute reach.small reach.blank points success onward
  have leaves : machine.stays instruction = false := by
    cases stays : machine.stays instruction with
    | false => rfl
    | true =>
        rw [stride, if_pos stays] at past
        omega
  rw [step_of_past (free_of_execute free success leaves) (by omega), place]
  rfl

theorem InReach.countsExactly (reach : machine.InReach) : machine.CountsExactly where
  fetch word fetched success := by
    rcases holds_of_fetch success with ⟨holds, rfl⟩
    have small := reach.small
    have within := holds.within
    exact ⟨by omega, toNat_pc_advanced small within⟩
  skip instruction points skips := by
    have place := toNat_pc_lt_of_skips reach.blank points skips
    rw [toNat_pc_advanced reach.small points.holds.within]
    omega
  wait x points := by
    rw [toNat_pc_advanced reach.small points.holds.within]
    exact Nat.le_add_left _ _
  onward instruction next free points onward success := by
    rw [step_of_points free points] at success
    exact toNat_pc_of_execute reach.small reach.blank points success onward
  past instruction next free points onward success past count := by
    rw [steps_of_ok success (count + 1)]
    exact steps_of_error (step_of_stride_past reach free points onward success past) count

/-- In memory of fewer than 65536 bytes no program makes the program counter wrap. -/
theorem pc_never_wraps {options : Options} {start : Machine} (built : build options = .ok start)
    (small : options.memorySize ≤ 65535) {events : List Event}
    (unforced : ∀ event ∈ events, event.isForced = false) :
    (∀ address byte, 0x100F ≤ address →
        (start.afterAll events).memory.byte? address = some byte → byte = 0) ∧
      ((start.afterAll events).pc.toNat : Int) ≤ max 0x1012 options.memorySize ∧
      (start.afterAll events).CountsExactly := by
  have reach : (start.afterAll events).InReach :=
    afterAll_preserves_among InReach (fun event => event.isForced = false) inReach_of_respond
      (inReach_of_build built small) unforced
  have fits : (start.afterAll events).Fits options :=
    afterAll_preserves (fun machine => machine.Fits options) fits_of_respond
      (fits_of_build built) events
  have pc := reach.pc
  have size := fits.memory
  exact ⟨reach.blank, by omega, reach.countsExactly⟩

def skipping : List Event := [.load ⟨[0x60, 0x07, 0x30, 0x07], .standard⟩, .step]

def atSkip : Machine := (ofParts 0 (.initial 0x204) (.blank 8 1) (.empty 16) false).afterAll skipping

theorem pc_never_wraps_atSkip :
    atSkip.pc.toNat = 0x202 ∧
      atSkip.steps 2 = (atSkip.after .step, some (.badProgramCounter 0x206)) := by
  have state : atSkip.blocked = false ∧ atSkip.pc.toNat = 0x202 ∧ atSkip.memory.size = 0x204 ∧
      atSkip.memory.byte? atSkip.pc.toNat = some 0x30 ∧
      atSkip.memory.byte? (atSkip.pc.toNat + 1) = some 0x07 ∧
      atSkip.stride ⟨.skipEqByte, (0, 7)⟩ = 4 ∧ atSkip.step.toOption.isSome = true := by
    decide +kernel
  rcases state with ⟨free, place, size, high, low, stride, succeeds⟩
  have built : build { memorySize := 0x204, width := 8, height := 1 } =
      .ok (ofParts 0 (.initial 0x204) (.blank 8 1) (.empty 16) false) := rfl
  have unforced : ∀ event ∈ skipping, event.isForced = false := by decide
  have exactly : atSkip.CountsExactly := (pc_never_wraps built (by decide) unforced).2.2
  have points : atSkip.Points ⟨.skipEqByte, (0, 7)⟩ := ⟨0x3007, ⟨high, low⟩, rfl⟩
  have ends := exactly.past _ _ free points rfl (step_eq_after succeeds)
    (by rw [place, size, stride]; decide) 0
  rw [place, stride] at ends
  exact ⟨place, ends⟩

end Machine

end Chip8
