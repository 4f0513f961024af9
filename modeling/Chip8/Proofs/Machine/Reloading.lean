import Chip8.Proofs.Machine.KeyWait
import Chip8.Proofs.Machine.Loaded

/-! # Loading over a program

A load into a machine that is in use replaces memory and the program counter and keeps all else.
The next step begins the new program, unless the old one waits for a key: the machine then keeps
waiting, and holds the new program until a key is down. That key does not end the wait, since only
`waitKey` does.
-/

namespace Chip8

namespace Machine

variable {machine loaded : Machine} {image : Image}

/-! ## The word at the program counter -/

inductive Proceeds (machine : Machine) : Except Fault Machine → Prop
  | past (short : machine.memory.size ≤ machine.pc.toNat + 1) :
      Proceeds machine (.error (.badProgramCounter machine.pc.toNat))
  | foreign {word : Word} (holds : machine.Holds word) (undefined : word.Undefined) :
      Proceeds machine (.error (.invalidOpcode word.toNat))
  | executes {instruction : Instruction} (points : machine.Points instruction) :
      Proceeds machine (machine.advanced.execute instruction)

theorem proceeds_step (free : machine.blocked = false) : machine.Proceeds machine.step := by
  rcases machine.fetch_cases with past | ⟨word, holds, foreign⟩ | ⟨instruction, points⟩
  · rw [step_of_past free past]
    exact .past past
  · rw [step_of_foreign free holds foreign]
    exact .foreign holds ((Instruction.ofWord?_eq_none_iff word).mp foreign)
  · rw [step_of_points free points]
    exact .executes points

theorem Proceeds.of_points {instruction : Instruction} {outcome : Except Fault Machine}
    (proceeds : machine.Proceeds outcome) (points : machine.Points instruction) :
    outcome = machine.advanced.execute instruction := by
  cases proceeds with
  | past short =>
      have within := points.holds.within
      omega
  | foreign holds undefined =>
      rcases points with ⟨word, pointed, decoded⟩
      rw [holds.unique pointed, ← Instruction.ofWord?_eq_none_iff, decoded] at undefined
      cases undefined
  | executes others => rw [others.unique points]

/-! ## Loading -/

structure AtStart (machine : Machine) (image : Image) : Prop where
  pc : machine.pc.toNat = image.base
  next : machine.advanced.pc.toNat = image.base + 2
  bytes : ∀ offset, offset < image.size →
    machine.memory.byte? (image.base + offset) = image.data[offset]?

theorem exists_load (budget : image.size ≤ image.variant.budget)
    (within : image.base + image.size ≤ machine.memory.size) :
    ∃ loaded, machine.load image = .ok loaded :=
  ⟨_, map_eq_ok_iff.mpr ⟨_, Memory.load_eq_ok_iff.mpr ⟨⟨budget, within⟩, rfl⟩, rfl⟩⟩

theorem atStart_of_load (accepted : machine.load image = .ok loaded) : loaded.AtStart image := by
  rcases map_eq_ok_iff.mp accepted with ⟨memory, copied, rfl⟩
  rcases Memory.load_eq_ok_iff.mp copied with ⟨⟨_, within⟩, rfl⟩
  refine ⟨toNat_base image, ?_, ?_⟩
  · rw [advanced, Image.base]
    cases image.variant <;> rfl
  · intro offset inside
    rw [Memory.byte?_patch, ← Image.size, if_pos (by omega), Nat.add_sub_cancel_left]

theorem AtStart.holds (begins : machine.AtStart image) {high low : UInt8} {rest : List UInt8}
    (first : image.data = high :: low :: rest) : machine.Holds (.ofBytes high low) := by
  have long : 1 < image.size := by simp [Image.size, first]
  have highByte := begins.bytes 0 (by omega)
  have lowByte := begins.bytes 1 long
  simp only [first, List.getElem?_cons_zero, List.getElem?_cons_succ] at highByte lowByte
  rw [Holds, begins.pc, Word.high_ofBytes, Word.low_ofBytes]
  exact ⟨highByte, lowByte⟩

theorem blocked_of_load (accepted : machine.load image = .ok loaded) :
    loaded.blocked = machine.blocked := by
  rcases map_eq_ok_iff.mp accepted with ⟨memory, _, rfl⟩
  rfl

theorem waiting_of_load (accepted : machine.load image = .ok loaded) :
    loaded.waiting = machine.waiting := by
  rcases map_eq_ok_iff.mp accepted with ⟨memory, _, rfl⟩
  rfl

/-! ## Programs that are held -/

theorem blocked_setKeys (machine : Machine) {bitmap : Int}
    (down : (Keypad.ofBitmap bitmap).anyDown = true) :
    (machine.setKeys bitmap).blocked = false := by
  rw [Machine.blocked, setKeys, down, Bool.not_true, Bool.and_false]

def Event.isQuiet : Event → Bool
  | .step | .tick => true
  | .setKeys bitmap => !(Keypad.ofBitmap bitmap).anyDown
  | .execute _ | .load _ => false

theorem respond_of_quiet {event : Event} (blocked : machine.blocked = true)
    (quiet : event.isQuiet = true) :
    machine.respond event = .ok (machine.idled ([event].count .tick) machine.keypad) := by
  cases event with
  | step =>
      rw [respond, step_of_blocked blocked]
      exact congrArg Except.ok machine.idled_zero.symm
  | tick =>
      rw [respond, tick_eq_idled]
      rfl
  | setKeys bitmap =>
      have released : (Keypad.ofBitmap bitmap).anyDown = false := by
        simpa [Event.isQuiet] using quiet
      have up : machine.keypad.anyDown = false := by
        simp only [Machine.blocked, Bool.and_eq_true, Bool.not_eq_true'] at blocked
        exact blocked.2
      rw [respond, setKeys_eq_idled, Keypad.eq_of_released released up]
      rfl
  | execute | load => cases quiet

/-- A blocked machine only counts down its timers. -/
theorem respondAll_of_quiet {events : List Event} (blocked : machine.blocked = true)
    (quiet : ∀ event ∈ events, event.isQuiet = true) :
    machine.respondAll events = .ok (machine.idled (events.count .tick) machine.keypad) := by
  induction events generalizing machine with
  | nil => rw [respondAll, List.count_nil, idled_zero]
  | cons event rest induction =>
      rw [List.forall_mem_cons] at quiet
      have still : (machine.idled ([event].count .tick) machine.keypad).blocked = true := blocked
      rw [respondAll, respond_of_quiet blocked quiet.1]
      refine (induction still quiet.2).trans ?_
      rw [idled_idled, ← List.count_append, List.singleton_append]
      rfl

theorem waiting_of_step {next : Machine} (success : machine.step = .ok next)
    (other : ∀ x, ¬machine.Points ⟨.waitKey, x⟩) : next.waiting = machine.waiting := by
  rcases step_cases success with ⟨_, rfl⟩ | ⟨_, ⟨opcode, operands⟩, points, executed⟩
  · rfl
  · have advanced : next.waiting = machine.advanced.waiting := by
      refine waiting_of_execute executed ?_
      rintro rfl
      exact other operands points
    exact advanced

/-- The next step after a load begins the image, unless the machine was blocked. Then nothing but
the timers changes until a key is down. The step after that begins the image, and leaves the
machine waiting as it was unless the image begins with a wait of its own. -/
theorem begins_after_load (accepted : machine.load image = .ok loaded) :
    loaded.AtStart image ∧
      (machine.blocked = false → loaded.Proceeds loaded.step) ∧
      (machine.blocked = true → ∀ quiet, (∀ event ∈ quiet, Event.isQuiet event = true) →
        ∃ held, loaded.respondAll quiet = .ok held ∧
          held = loaded.idled (quiet.count .tick) loaded.keypad ∧
          ∀ bitmap, (Keypad.ofBitmap bitmap).anyDown = true →
            (held.setKeys bitmap).AtStart image ∧
            (held.setKeys bitmap).Proceeds (held.setKeys bitmap).step ∧
            ∀ next, (held.setKeys bitmap).step = .ok next →
              (∀ x, ¬(held.setKeys bitmap).Points ⟨.waitKey, x⟩) →
              next.waiting = machine.waiting) := by
  have begins := atStart_of_load accepted
  refine ⟨begins, ?_, ?_⟩
  · intro free
    exact proceeds_step ((blocked_of_load accepted).trans free)
  · intro blocked quiet allowed
    have stopped : loaded.blocked = true := (blocked_of_load accepted).trans blocked
    have waits : loaded.waiting = machine.waiting := waiting_of_load accepted
    refine ⟨_, respondAll_of_quiet stopped allowed, rfl, ?_⟩
    intro bitmap down
    have free := blocked_setKeys (loaded.idled (quiet.count .tick) loaded.keypad) down
    refine ⟨⟨begins.pc, begins.next, begins.bytes⟩, proceeds_step free, ?_⟩
    intro next success other
    exact (waiting_of_step success other).trans waits

def atRest : Machine := ofParts 0 (.initial 0x204) (.blank 8 1) (.empty 16) false

def pausedAtWait : Machine := atRest.afterAll [.load ⟨[0xF0, 0x0A], .standard⟩, .step]

theorem begins_after_load_pausedAtWait :
    (∃ loaded, atRest.load ⟨[0x61, 0x05], .standard⟩ = .ok loaded ∧
        loaded.step = loaded.advanced.execute ⟨.setByte, (1, 5)⟩) ∧
      ∃ loaded held, pausedAtWait.load ⟨[0x61, 0x05], .standard⟩ = .ok loaded ∧
        loaded.respondAll [.tick, .step, .setKeys 0x10000] = .ok held ∧
        (held.setKeys 4).step = (held.setKeys 4).advanced.execute ⟨.setByte, (1, 5)⟩ ∧
        ∀ next, (held.setKeys 4).step = .ok next → next.waiting = some 0 := by
  have states : atRest.blocked = false ∧ atRest.memory.size = 0x204 ∧
      pausedAtWait.blocked = true ∧ pausedAtWait.memory.size = 0x204 ∧
      pausedAtWait.waiting = some 0 ∧
      ∀ event ∈ [Event.tick, .step, .setKeys 0x10000], event.isQuiet = true := by
    decide +kernel
  rcases states with ⟨free, size, blocked, pausedSize, waits, quiet⟩
  generalize atRest = fresh at free size
  generalize pausedAtWait = paused at blocked pausedSize waits
  constructor
  · rcases @exists_load fresh ⟨[0x61, 0x05], .standard⟩ (by decide) (by rw [size]; decide) with
      ⟨loaded, accepted⟩
    rcases begins_after_load accepted with ⟨begins, proceeds, _⟩
    have points : loaded.Points ⟨.setByte, (1, 5)⟩ := ⟨_, begins.holds rfl, rfl⟩
    exact ⟨loaded, accepted, (proceeds free).of_points points⟩
  · rcases @exists_load paused ⟨[0x61, 0x05], .standard⟩ (by decide)
      (by rw [pausedSize]; decide) with ⟨loaded, accepted⟩
    rcases begins_after_load accepted with ⟨_, _, kept⟩
    rcases kept blocked _ quiet with ⟨held, reached, _, wakes⟩
    rcases wakes 4 (by decide) with ⟨begins, proceeds, still⟩
    have points : (held.setKeys 4).Points ⟨.setByte, (1, 5)⟩ := ⟨_, begins.holds rfl, rfl⟩
    refine ⟨loaded, held, accepted, reached, proceeds.of_points points, fun next success => ?_⟩
    refine (still next success fun x waiting => ?_).trans waits
    cases points.unique waiting

/-- A program loaded over one that waits for a key is not begun. -/
theorem load_keeps_wait :
    ∃ loaded, build { memorySize := 0x204, width := 8, height := 1 } = .ok atRest ∧
      (atRest.afterAll [.load ⟨[0xF0, 0x0A], .standard⟩, .step]).load
        ⟨[0x61, 0x05], .standard⟩ = .ok loaded ∧
      loaded.Points ⟨.setByte, (1, 5)⟩ ∧ loaded.step = .ok loaded ∧
      ¬loaded.Proceeds loaded.step := by
  have states : pausedAtWait.blocked = true ∧ pausedAtWait.memory.size = 0x204 := by
    decide +kernel
  rcases states with ⟨blocked, size⟩
  change ∃ loaded, _ ∧ pausedAtWait.load _ = .ok loaded ∧ _
  generalize pausedAtWait = paused at blocked size
  rcases @exists_load paused ⟨[0x61, 0x05], .standard⟩ (by decide) (by rw [size]; decide) with
    ⟨loaded, accepted⟩
  have begins := atStart_of_load accepted
  have points : loaded.Points ⟨.setByte, (1, 5)⟩ := ⟨_, begins.holds rfl, rfl⟩
  have unchanged : loaded.step = .ok loaded :=
    step_of_blocked ((blocked_of_load accepted).trans blocked)
  refine ⟨loaded, rfl, accepted, points, unchanged, fun proceeds => ?_⟩
  rw [unchanged] at proceeds
  have same : loaded = loaded.advanced.setRegister 1 5 :=
    Except.ok.inj (proceeds.of_points points)
  have pc : loaded.pc = (loaded.advanced.setRegister 1 5).pc := congrArg Machine.pc same
  have apart : (loaded.advanced.setRegister 1 5).pc.toNat = 0x202 := begins.next
  rw [← pc, begins.pc] at apart
  cases apart

end Machine

end Chip8
