import Chip8.Machine.Step
import Mathlib.Data.Fin.Tuple.Basic

/-! # Keys and timers

The search for the lowest key and the repeated ticks of the timers, in closed form.
-/

namespace Chip8

namespace Keypad

theorem lowest?_eq_some_iff {keypad : Keypad} {key : Fin 16} :
    keypad.lowest? = some key ↔
      keypad.isDown key = true ∧ ∀ lower, lower < key → keypad.isDown lower = false := by
  rw [lowest?, ← Fin.find?_eq_find?_finRange, Fin.find?_eq_some_iff]

theorem anyDown_eq_true_iff {keypad : Keypad} :
    keypad.anyDown = true ↔ ∃ key, keypad.isDown key = true := by
  rw [anyDown, lowest?, ← Fin.find?_eq_find?_finRange, Fin.isSome_find?_iff]

theorem anyDown_eq_false_iff {keypad : Keypad} :
    keypad.anyDown = false ↔ ∀ key, keypad.isDown key = false := by
  rw [anyDown, lowest?, ← Fin.find?_eq_find?_finRange, Option.isSome_eq_false_iff,
    Fin.isNone_find?_iff]

theorem eq_of_released {left right : Keypad} (leftUp : left.anyDown = false)
    (rightUp : right.anyDown = false) : left = right := by
  rw [anyDown_eq_false_iff] at leftUp rightUp
  rw [mk.injEq]
  apply BitVec.eq_of_getLsbD_eq
  intro key bound
  exact (leftUp ⟨key, bound⟩).trans (rightUp ⟨key, bound⟩).symm

end Keypad

namespace Machine

theorem toNat_countDown (timer : UInt8) : (countDown timer).toNat = timer.toNat - 1 := by
  rw [countDown]
  split
  next zero =>
      rw [zero]
      rfl
  next nonzero =>
      have positive : 1 ≤ timer.toNat := by
        apply Nat.pos_of_ne_zero
        intro zero
        exact nonzero (UInt8.toNat_inj.mp zero)
      exact UInt8.toNat_sub_of_le _ _ (UInt8.le_iff_toNat_le.mpr positive)

def idled (machine : Machine) (ticks : Nat) (keypad : Keypad) : Machine :=
  { machine with
    delay := .ofNat (machine.delay.toNat - ticks)
    sound := .ofNat (machine.sound.toNat - ticks)
    keypad }

@[simp] theorem idled_zero (machine : Machine) : machine.idled 0 machine.keypad = machine := by
  rw [idled, Nat.sub_zero, Nat.sub_zero, UInt8.ofNat_toNat, UInt8.ofNat_toNat]

theorem setKeys_eq_idled (machine : Machine) (bitmap : Int) :
    machine.setKeys bitmap = machine.idled 0 (.ofBitmap bitmap) := by
  rw [idled, Nat.sub_zero, Nat.sub_zero, UInt8.ofNat_toNat, UInt8.ofNat_toNat, setKeys]

theorem tick_eq_idled (machine : Machine) : machine.tick = machine.idled 1 machine.keypad := by
  rw [idled, ← toNat_countDown, ← toNat_countDown, UInt8.ofNat_toNat, UInt8.ofNat_toNat, tick]

theorem idled_idled (machine : Machine) (first second : Nat) (keypad other : Keypad) :
    (machine.idled first keypad).idled second other = machine.idled (first + second) other := by
  have later (timer : UInt8) :
      (UInt8.ofNat (timer.toNat - first)).toNat - second = timer.toNat - (first + second) := by
    have small : timer.toNat - first < UInt8.size :=
      Nat.lt_of_le_of_lt (Nat.sub_le _ _) timer.toNat_lt
    rw [UInt8.toNat_ofNat_of_lt' small]
    exact Nat.sub_sub _ _ _
  simp only [idled, later]

end Machine

end Chip8
