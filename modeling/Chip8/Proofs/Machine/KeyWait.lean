import Chip8.Proofs.Machine.Histories
import Chip8.Proofs.Machine.Parts

/-! # Waiting for a key

A machine that waits for a key points at the instruction it waits in. Steps keep this: only that
instruction begins a wait, by moving the program counter back onto itself, and a waiting machine
executes no other, so memory cannot change under it.
-/

namespace Chip8.Machine

variable {machine next : Machine} {x : Register}

def WaitSound (machine : Machine) : Prop :=
  ∀ x, machine.waiting = some x → machine.Holds (Instruction.encode ⟨.waitKey, x⟩)

theorem WaitSound.of_none (awake : machine.waiting = none) : machine.WaitSound := by
  intro x waits
  rw [awake] at waits
  cases waits

/-! ## The invariant -/

theorem waitSound_waitForKey (points : machine.Points ⟨.waitKey, x⟩) :
    (machine.advanced.waitForKey x).WaitSound := by
  cases pressed : machine.keypad.lowest? with
  | some key =>
      apply WaitSound.of_none
      simp only [waitForKey, advanced, pressed]
  | none =>
      have back : machine.advanced.waitForKey x = { machine with waiting := some x } := by
        simp only [waitForKey, advanced, pressed, UInt16.add_sub_cancel]
      intro y waits
      rw [back] at waits ⊢
      cases waits
      exact points.holds

theorem waitSound_step (sound : machine.WaitSound) (success : machine.step = .ok next) :
    next.WaitSound := by
  rcases step_cases success with ⟨_, rfl⟩ | ⟨_, ⟨opcode, operands⟩, points, executed⟩
  · exact sound
  · by_cases waits : opcode = .waitKey
    · subst waits
      cases executed
      exact waitSound_waitForKey points
    · have awake : machine.waiting = none := by
        rw [Option.eq_none_iff_forall_ne_some]
        intro y waiting
        have same := points.unique ((sound y waiting).points nofun)
        exact waits (congrArg Instruction.opcode same)
      apply WaitSound.of_none
      exact (waiting_of_execute executed waits).trans awake

theorem preserved_waitSound : Preserved WaitSound where
  step := waitSound_step
  tick sound := sound
  setKeys _ sound := sound

/-! ## The end of a wait -/

theorem blocked_of_released (waits : machine.waiting = some x)
    (released : ∀ key, machine.keypad.isDown key = false) : machine.blocked = true := by
  rw [blocked, waits, Keypad.anyDown_eq_false_iff.mpr released]
  rfl

theorem step_of_pressed {key : Fin 16} (points : machine.Points ⟨.waitKey, x⟩)
    (lowest : machine.keypad.lowest? = some key) :
    machine.step = .ok { machine with
      v := machine.v.put x (UInt8.ofNat key.val)
      pc := machine.pc + 2
      waiting := none } := by
  have free : machine.blocked = false := by
    rw [blocked, Keypad.anyDown, lowest, Option.isSome_some, Bool.not_true, Bool.and_false]
  have ended : machine.advanced.execute ⟨.waitKey, x⟩ =
      .ok (machine.advanced.waitForKey x) := rfl
  rw [step_of_points free points, ended, waitForKey]
  simp only [advanced, lowest]

end Chip8.Machine
