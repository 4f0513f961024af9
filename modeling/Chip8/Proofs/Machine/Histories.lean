import Chip8.Machine.History
import Chip8.Machine.Options
import Chip8.Proofs.CallStack
import Chip8.Proofs.Machine.Effect
import Chip8.Proofs.Machine.Peripherals

/-! # What events preserve

An event that fails changes nothing, so a property of machines holds after every history if it
holds at the start and every event that succeeds preserves it. What events do to memory and stack
is collected here once for all invariants.
-/

namespace Chip8.Machine

variable {machine next : Machine} {event : Event}

private theorem bind_eq_ok_iff {ε α β : Type} {result : Except ε α} {next : α → Except ε β}
    {value : β} : result >>= next = .ok value ↔
      ∃ source, result = .ok source ∧ next source = .ok value := by
  cases result with
  | error error => simp [bind, Except.bind]
  | ok source => simp [bind, Except.bind]

theorem parts_of_build {options : Options} {start : Machine} (built : build options = .ok start) :
    ∃ memory display stack, Memory.create options.memorySize = .ok memory ∧
      Display.create options.width options.height = .ok display ∧
      CallStack.create options.stackDepth = .ok stack ∧
      start = ofParts options.seed memory display stack options.shiftUsesY := by
  rw [build] at built
  split at built
  · cases parts : ofOptions options with
    | error error =>
        rw [parts] at built
        cases built
    | ok machine =>
        rw [parts] at built
        cases built
        rw [ofOptions] at parts
        rcases bind_eq_ok_iff.mp parts with ⟨memory, memoryCreated, parts⟩
        rcases bind_eq_ok_iff.mp parts with ⟨display, displayCreated, parts⟩
        rcases bind_eq_ok_iff.mp parts with ⟨stack, stackCreated, made⟩
        cases made
        exact ⟨memory, display, stack, memoryCreated, displayCreated, stackCreated, rfl⟩
  · cases built

def Reachable (machine : Machine) : Prop :=
  ∃ options start events, build options = .ok start ∧ start.afterAll events = machine

theorem afterAll_preserves_among (Property : Machine → Prop) (Allowed : Event → Prop)
    (preserved : ∀ {machine next : Machine} {event : Event}, Allowed event → Property machine →
      machine.respond event = .ok next → Property next)
    {start : Machine} (initially : Property start) {events : List Event}
    (allowed : ∀ event ∈ events, Allowed event) : Property (start.afterAll events) := by
  induction events generalizing start with
  | nil => exact initially
  | cons event rest induction =>
      refine induction ?_ fun later member => allowed later (.tail event member)
      rw [after]
      cases outcome : start.respond event with
      | ok next => exact preserved (allowed event (.head rest)) initially outcome
      | error fault => exact initially

theorem afterAll_preserves (Property : Machine → Prop)
    (preserved : ∀ {machine next : Machine} {event : Event}, Property machine →
      machine.respond event = .ok next → Property next)
    {start : Machine} (initially : Property start) (events : List Event) :
    Property (start.afterAll events) :=
  afterAll_preserves_among Property (fun _ => True) (fun _ => preserved) initially
    fun _ _ => trivial

/-! ## Events that all succeed -/

theorem respondAll_cons_iff {last : Machine} {rest : List Event} :
    machine.respondAll (event :: rest) = .ok last ↔
      ∃ next, machine.respond event = .ok next ∧ next.respondAll rest = .ok last := by
  rw [respondAll]
  cases machine.respond event with
  | ok next => simp
  | error fault => simp

theorem respondAll_append_iff {last : Machine} {first second : List Event} :
    machine.respondAll (first ++ second) = .ok last ↔
      ∃ middle, machine.respondAll first = .ok middle ∧ middle.respondAll second = .ok last := by
  induction first generalizing machine with
  | nil => simp [respondAll]
  | cons event rest induction =>
      rw [List.cons_append, respondAll_cons_iff]
      simp only [induction, respondAll_cons_iff]
      constructor
      · rintro ⟨next, responds, middle, before, after⟩
        exact ⟨middle, ⟨next, responds, before⟩, after⟩
      · rintro ⟨middle, ⟨next, responds, before⟩, after⟩
        exact ⟨next, responds, middle, before, after⟩

/-! ## Steps -/

theorem step_eq_after (succeeds : machine.step.toOption.isSome = true) :
    machine.step = .ok (machine.after .step) := by
  rw [after, respond]
  cases outcome : machine.step with
  | ok next => rfl
  | error fault =>
      rw [outcome] at succeeds
      cases succeeds

theorem steps_of_ok (success : machine.step = .ok next) (count : Nat) :
    machine.steps (count + 1) = next.steps count := by
  rw [steps, success]

theorem steps_of_error {fault : Fault} (failure : machine.step = .error fault) (count : Nat) :
    machine.steps (count + 1) = (machine, some fault) := by
  rw [steps, failure]

structure Preserved (Property : Machine → Prop) : Prop where
  step : ∀ {machine next : Machine}, Property machine → machine.step = .ok next → Property next
  tick : ∀ {machine : Machine}, Property machine → Property machine.tick
  setKeys : ∀ {machine : Machine} (bitmap : Int), Property machine →
    Property (machine.setKeys bitmap)

theorem Preserved.steps {Property : Machine → Prop} (preserved : Preserved Property)
    {machine : Machine} (initially : Property machine) (count : Nat) :
    Property (machine.steps count).1 := by
  induction count generalizing machine with
  | zero => exact initially
  | succ count induction =>
      cases outcome : machine.step with
      | error fault =>
          rw [steps_of_error outcome]
          exact initially
      | ok next =>
          rw [steps_of_ok outcome]
          exact induction (preserved.step initially outcome)

theorem respond_cases (success : machine.respond event = .ok next) :
    (∃ ticks keypad, next = machine.idled ticks keypad) ∨
      (∃ image, machine.load image = .ok next) ∨
        ∃ pc instruction, { machine with pc }.execute instruction = .ok next := by
  cases event with
  | step =>
      rcases step_cases success with ⟨_, same⟩ | ⟨_, instruction, _, executed⟩
      · exact .inl ⟨0, machine.keypad, same.trans machine.idled_zero.symm⟩
      · exact .inr (.inr ⟨_, instruction, executed⟩)
  | execute instruction => exact .inr (.inr ⟨machine.pc, instruction, success⟩)
  | tick =>
      cases success
      exact .inl ⟨1, machine.keypad, machine.tick_eq_idled⟩
  | setKeys bitmap =>
      cases success
      exact .inl ⟨0, _, machine.setKeys_eq_idled bitmap⟩
  | load image => exact .inr (.inl ⟨image, success⟩)

theorem memory_of_respond (success : machine.respond event = .ok next) :
    next.memory = machine.memory ∨
      (∃ data, data.length ≤ 16 ∧
        machine.memory.write machine.index.toNat data = .ok next.memory) ∨
        ∃ image, machine.memory.load image = .ok next.memory := by
  rcases respond_cases success with
    ⟨ticks, keypad, rfl⟩ | ⟨image, loaded⟩ | ⟨pc, instruction, executed⟩
  · exact .inl rfl
  · rcases map_eq_ok_iff.mp loaded with ⟨memory, copied, rfl⟩
    exact .inr (.inr ⟨image, copied⟩)
  · rcases (execute_effect _ instruction).memory_cases executed with
      same | ⟨data, demands, written⟩
    · exact .inl same
    · exact .inr (.inl ⟨data, Instruction.length_le_of_demand demands, written⟩)

theorem stack_of_respond (success : machine.respond event = .ok next) :
    next.stack = machine.stack ∨
      (∃ address : Word, machine.stack.push address.toNat = .ok next.stack) ∨
        ∃ address, machine.stack.pop = .ok (address, next.stack) := by
  rcases respond_cases success with
    ⟨ticks, keypad, rfl⟩ | ⟨image, loaded⟩ | ⟨pc, instruction, executed⟩
  · exact .inl rfl
  · rcases map_eq_ok_iff.mp loaded with ⟨memory, _, rfl⟩
    exact .inl rfl
  · rcases (execute_effect _ instruction).stack_cases executed with same | pushed | popped
    · exact .inl same
    · exact .inr (.inl ⟨pc, pushed⟩)
    · exact .inr (.inr popped)

/-! ## Clean stacks -/

theorem clean_of_respond (clean : machine.stack.Clean) (success : machine.respond event = .ok next) :
    next.stack.Clean := by
  rcases stack_of_respond success with same | ⟨address, pushed⟩ | ⟨address, popped⟩
  · rw [same]
    exact clean
  · exact clean.push pushed
  · exact clean.pop popped

theorem clean_afterAll {options : Options} {start : Machine} (built : build options = .ok start)
    (events : List Event) : (start.afterAll events).stack.Clean := by
  rcases parts_of_build built with ⟨memory, display, stack, _, _, created, rfl⟩
  exact afterAll_preserves (fun machine => machine.stack.Clean) clean_of_respond
    (CallStack.clean_create created) events

theorem Reachable.clean (reachable : machine.Reachable) : machine.stack.Clean := by
  rcases reachable with ⟨options, start, events, built, rfl⟩
  exact clean_afterAll built events

end Chip8.Machine
