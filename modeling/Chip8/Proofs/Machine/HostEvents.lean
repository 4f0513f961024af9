import Chip8.Proofs.Machine.Histories
import Chip8.Proofs.Machine.Parts

/-! # Ticks and keys between steps

A tick changes the timers and nothing else, and only three opcodes have to do with them. As long as
none of these is executed, a tick can be moved past a step, so a schedule of steps and ticks comes
to the same as all its steps and then all its ticks. In the same way keys can be set before or after
a step that does not ask for them.
-/

namespace Chip8

namespace Opcode

def timers : List Opcode := [.readDelay, .setDelay, .setSound]

def keys : List Opcode := [.skipKey, .skipNoKey, .waitKey]

variable {opcode : Opcode}

theorem ignores_delay (other : opcode ∉ timers) : opcode.Ignores .delay := by
  revert other
  cases opcode <;> simp [timers, Ignores, reads, writes]

theorem ignores_sound (other : opcode ∉ timers) : opcode.Ignores .sound := by
  revert other
  cases opcode <;> simp [timers, Ignores, reads, writes]

theorem ignores_keypad (other : opcode ∉ keys) : opcode.Ignores .keypad := by
  revert other
  cases opcode <;> simp [keys, Ignores, reads, writes]

end Opcode

namespace Machine

variable {machine next last : Machine} {events : List Event}

/-! ## One step -/

theorem delay_of_step (avoids : machine.Avoids Opcode.timers) (success : machine.step = .ok next) :
    next.delay = machine.delay :=
  (step_sameAt success fun free instruction points =>
    (Opcode.ignores_delay (avoids free instruction points)).2 : SameAt next machine .delay)

theorem sound_of_step (avoids : machine.Avoids Opcode.timers) (success : machine.step = .ok next) :
    next.sound = machine.sound :=
  (step_sameAt success fun free instruction points =>
    (Opcode.ignores_sound (avoids free instruction points)).2 : SameAt next machine .sound)

theorem step_tick (avoids : machine.Avoids Opcode.timers) :
    machine.tick.step = machine.step.map tick := by
  let delayed := machine.graft machine.tick .delay
  have delay : delayed.step = machine.step.map fun next => next.graft machine.tick .delay :=
    step_graft _ _ nofun rfl fun free instruction points =>
      Opcode.ignores_delay (avoids free instruction points)
  have sound : (delayed.graft machine.tick .sound).step =
      delayed.step.map fun next => next.graft machine.tick .sound := by
    refine step_graft _ _ (by decide) rfl ?_
    intro free instruction points
    have held : machine.Points instruction := (points_graft_iff (by decide)).mp points
    exact Opcode.ignores_sound (avoids free instruction held)
  change (delayed.graft machine.tick .sound).step = _
  rw [sound, delay, map_map]
  cases outcome : machine.step with
  | error fault => rfl
  | ok next =>
      simp only [Except.map, graft, tick, delay_of_step avoids outcome,
        sound_of_step avoids outcome]

theorem step_setKeys (awake : machine.waiting = none) (avoids : machine.Avoids Opcode.keys)
    (bitmap : Int) :
    (machine.setKeys bitmap).step = machine.step.map fun next => next.setKeys bitmap := by
  have free (keypad : Keypad) : { machine with keypad }.blocked = false := by
    rw [blocked, awake]
    rfl
  have grafted : (machine.graft (machine.setKeys bitmap) .keypad).step =
      machine.step.map fun next => next.graft (machine.setKeys bitmap) .keypad := by
    refine step_graft _ _ (by decide) ((free _).trans (free machine.keypad).symm) ?_
    intro free instruction points
    exact Opcode.ignores_keypad (avoids free instruction points)
  exact grafted

theorem avoids_tick_iff {opcodes : List Opcode} :
    machine.tick.Avoids opcodes ↔ machine.Avoids opcodes :=
  Iff.rfl

/-! ## Schedules -/

/-- The machine after a schedule, or the number of steps before the one that fails and its fault. -/
def follow (machine : Machine) : List Event → Except (Nat × Fault) Machine
  | [] => .ok machine
  | event :: rest =>
      match machine.respond event with
      | .error fault => .error (0, fault)
      | .ok next => (next.follow rest).mapError fun (steps, fault) =>
          (steps + [event].count .step, fault)

/-- A schedule of steps and ticks in which no step reads or sets a timer. -/
inductive Paced : Machine → List Event → Prop
  | nil {machine : Machine} : Paced machine []
  | tick {machine : Machine} {events : List Event} (rest : Paced machine.tick events) :
      Paced machine (.tick :: events)
  | step {machine : Machine} {events : List Event} (avoids : machine.Avoids Opcode.timers)
      (rest : ∀ next, machine.step = .ok next → Paced next events) : Paced machine (.step :: events)

theorem follow_cons_map {left right : Machine} {event : Event} {first second : List Event}
    {move transform : Machine → Machine}
    (responds : left.respond event = (right.respond event).map move)
    (later : ∀ next, right.respond event = .ok next →
      (move next).follow first = (next.follow second).map transform) :
    left.follow (event :: first) = (right.follow (event :: second)).map transform := by
  rw [follow, follow, responds]
  cases outcome : right.respond event with
  | error fault => rfl
  | ok next =>
      simp only [Except.map, later next outcome]
      cases next.follow second <;> rfl

theorem follow_tick : machine.follow (.tick :: events) = machine.tick.follow events := by
  simp only [follow, respond]
  cases machine.tick.follow events <;> rfl

theorem follow_eq_ok_iff :
    machine.follow events = .ok last ↔ machine.respondAll events = .ok last := by
  induction events generalizing machine with
  | nil => simp [follow, respondAll]
  | cons event rest induction =>
      rw [follow, respondAll]
      cases machine.respond event with
      | error fault => simp
      | ok next =>
          simp only [← induction]
          cases next.follow rest <;> simp [Except.mapError]

theorem count_step_tick : (Event.tick :: events).count .step = events.count .step :=
  List.count_cons_of_ne (by decide)

theorem count_tick_step : (Event.step :: events).count .tick = events.count .tick :=
  List.count_cons_of_ne (by decide)

theorem Paced.of_tick (paced : machine.tick.Paced events) : machine.Paced events := by
  induction events generalizing machine with
  | nil => exact .nil
  | cons event rest induction =>
      cases paced with
      | tick later => exact .tick (induction later)
      | step avoids later =>
          have avoidsToo : machine.Avoids Opcode.timers := avoids_tick_iff.mp avoids
          refine .step avoidsToo fun next success => induction (later next.tick ?_)
          rw [step_tick avoidsToo, success]
          rfl

/-- A tick can be put off to the end of a schedule. -/
theorem follow_of_tick (paced : machine.Paced events) :
    machine.tick.follow events = (machine.follow events).map tick := by
  induction paced with
  | nil => rfl
  | tick rest induction =>
      rw [follow_tick, follow_tick, induction]
  | step avoids rest induction => exact follow_cons_map (step_tick avoids) induction

theorem tick_ticks (machine : Machine) (count : Nat) :
    (machine.ticks count).tick = machine.ticks (count + 1) := by
  induction count generalizing machine with
  | zero => rfl
  | succ count induction => exact induction machine.tick

theorem follow_replicate_tick (machine : Machine) (count : Nat) :
    machine.follow (.replicate count .tick) = .ok (machine.ticks count) := by
  induction count generalizing machine with
  | zero => rfl
  | succ count induction =>
      rw [List.replicate_succ, follow_tick]
      exact induction machine.tick

theorem follow_append_ticks (steps count : Nat) :
    machine.follow (.replicate steps .step ++ .replicate count .tick) =
      (machine.follow (.replicate steps .step)).map fun next => next.ticks count := by
  induction steps generalizing machine with
  | zero => exact follow_replicate_tick machine count
  | succ steps induction =>
      rw [List.replicate_succ, List.cons_append]
      exact follow_cons_map (id_map _).symm fun next _ => induction

/-- A paced schedule comes to the same as its steps with its ticks after them. -/
theorem follow_of_paced (paced : machine.Paced events) :
    machine.follow events =
      (machine.follow (.replicate (events.count .step) .step)).map fun next =>
        next.ticks (events.count .tick) := by
  induction events generalizing machine with
  | nil => rfl
  | cons event events induction =>
      cases paced with
      | tick rest =>
          rw [List.count_cons_self, count_step_tick, follow_tick, follow_of_tick rest.of_tick,
            induction rest.of_tick, map_map]
          simp only [tick_ticks]
      | step avoids rest =>
          rw [List.count_cons_self, count_tick_step, List.replicate_succ]
          exact follow_cons_map (id_map _).symm fun next success => induction (rest next success)

theorem timers_of_paced (paced : machine.Paced events)
    (success : machine.respondAll events = .ok last) :
    last.delay.toNat = machine.delay.toNat - events.count .tick ∧
      last.sound.toNat = machine.sound.toNat - events.count .tick := by
  induction paced with
  | nil =>
      cases success
      exact ⟨rfl, rfl⟩
  | @tick machine events rest induction =>
      rcases induction success with ⟨delay, sound⟩
      have delayed : machine.tick.delay.toNat = machine.delay.toNat - 1 := toNat_countDown _
      have sounded : machine.tick.sound.toNat = machine.sound.toNat - 1 := toNat_countDown _
      rw [List.count_cons_self]
      omega
  | @step machine events avoids rest induction =>
      rcases respondAll_cons_iff.mp success with ⟨next, stepped, success⟩
      rw [count_tick_step, ← delay_of_step avoids stepped, ← sound_of_step avoids stepped]
      exact induction next stepped success

/-- Ticks can be put off to the end as long as no step reads or sets a timer, and keys can be set
before a step or after it if the machine does not wait and the step reads no key. -/
theorem hostEvents_commute (machine : Machine) :
    (∀ schedule, machine.Paced schedule →
        machine.follow schedule = machine.follow
          (.replicate (schedule.count .step) .step ++ .replicate (schedule.count .tick) .tick) ∧
        ∀ last, machine.follow schedule = .ok last →
          last.delay.toNat = machine.delay.toNat - schedule.count .tick ∧
            last.sound.toNat = machine.sound.toNat - schedule.count .tick) ∧
      ∀ bitmap, machine.waiting = none → machine.Avoids Opcode.keys →
        (machine.setKeys bitmap).step = machine.step.map fun next => next.setKeys bitmap := by
  refine ⟨fun schedule paced => ⟨?_, fun last success => ?_⟩, fun bitmap awake avoids => ?_⟩
  · rw [follow_append_ticks]
    exact follow_of_paced paced
  · exact timers_of_paced paced (follow_eq_ok_iff.mp success)
  · exact step_setKeys awake avoids bitmap

def atCountdown : Machine :=
  (ofParts 0 (.initial 0x208) (.blank 8 1) (.empty 16) false).afterAll
    [.load ⟨[0x60, 0x05, 0xF0, 0x15, 0x71, 0x01, 0x12, 0x04], .standard⟩, .step, .step]

theorem hostEvents_commute_atCountdown :
    ∃ last, atCountdown.follow [.tick, .step, .tick, .step, .tick] = .ok last ∧
      atCountdown.follow [.step, .step, .tick, .tick, .tick] = .ok last ∧ last.delay.toNat = 2 ∧
      (atCountdown.setKeys 5).step = atCountdown.step.map fun next => next.setKeys 5 := by
  have states : atCountdown.delay.toNat = 5 ∧ atCountdown.waiting = none ∧
      atCountdown.memory.byte? atCountdown.pc.toNat = some 0x71 ∧
      atCountdown.memory.byte? (atCountdown.pc.toNat + 1) = some 0x01 ∧
      atCountdown.tick.step.toOption.isSome = true ∧
      (atCountdown.tick.after .step).memory.byte? (atCountdown.tick.after .step).pc.toNat =
        some 0x12 ∧
      (atCountdown.tick.after .step).memory.byte? ((atCountdown.tick.after .step).pc.toNat + 1) =
        some 0x04 ∧
      (atCountdown.tick.after .step).tick.step.toOption.isSome = true := by
    decide +kernel
  rcases states with ⟨five, awake, high, low, adds, nextHigh, nextLow, jumps⟩
  have points : atCountdown.Points ⟨.addByte, (1, 1)⟩ := ⟨0x7101, ⟨high, low⟩, rfl⟩
  have pointsNext : (atCountdown.tick.after .step).Points ⟨.jump, 0x204⟩ :=
    ⟨0x1204, ⟨nextHigh, nextLow⟩, rfl⟩
  have added := step_eq_after adds
  have jumped := step_eq_after jumps
  generalize atCountdown.tick.after .step = next at added pointsNext jumped
  generalize next.tick.after .step = last at jumped
  have paced : atCountdown.Paced [.tick, .step, .tick, .step, .tick] := by
    have first : atCountdown.Avoids Opcode.timers := avoids_of_points points (by decide)
    have second : next.Avoids Opcode.timers := avoids_of_points pointsNext (by decide)
    refine .tick (.step (avoids_tick_iff.mpr first) fun reached success => ?_)
    rw [added] at success
    cases success
    exact .tick (.step (avoids_tick_iff.mpr second) fun _ _ => .tick .nil)
  have success : atCountdown.follow [.tick, .step, .tick, .step, .tick] = .ok last.tick := by
    refine follow_eq_ok_iff.mpr (respondAll_cons_iff.mpr ⟨_, rfl, ?_⟩)
    refine respondAll_cons_iff.mpr ⟨next, added, respondAll_cons_iff.mpr ⟨_, rfl, ?_⟩⟩
    exact respondAll_cons_iff.mpr ⟨last, jumped, rfl⟩
  rcases hostEvents_commute atCountdown with ⟨ticks, keys⟩
  rcases ticks _ paced with ⟨reordered, timers⟩
  refine ⟨last.tick, success, reordered.symm.trans success, ?_, ?_⟩
  · rw [(timers _ success).1, five]
    rfl
  · exact keys 5 awake (avoids_of_points points (by decide))

end Machine

end Chip8
