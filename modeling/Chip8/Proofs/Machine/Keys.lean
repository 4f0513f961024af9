import Chip8.Proofs.Machine.Peripherals
import Chip8.Proofs.Machine.Step
import Mathlib.Data.Int.Bitwise
import Mathlib.Order.Bounds.Defs

/-! # Keys as bits of an integer

A host sets the keys from an integer of any size. The instructions look at them in different ways,
at one key, at the lowest key or at all keys at once, and find the bits of that integer each time.
-/

namespace Chip8

namespace Keypad

theorem isDown_ofBitmap (bitmap : Int) (key : Fin 16) :
    (ofBitmap bitmap).isDown key = bitmap.testBit key := by
  have bound := decide_eq_true key.isLt
  rw [isDown, ofBitmap]
  cases bitmap with
  | ofNat number =>
      rw [Int.ofNat_eq_natCast, BitVec.ofInt_natCast, BitVec.getLsbD_ofNat, bound, Bool.true_and]
      rfl
  | negSucc number =>
      rw [BitVec.ofInt_negSucc_eq_not_ofNat, BitVec.getLsbD_not, BitVec.getLsbD_ofNat, bound,
        Bool.true_and, Bool.true_and]
      rfl

theorem ofBitmap_eq_iff (left right : Int) :
    ofBitmap left = ofBitmap right ↔ left % 65536 = right % 65536 := by
  rw [ofBitmap, ofBitmap, mk.injEq, ← BitVec.toNat_inj, BitVec.toNat_ofInt, BitVec.toNat_ofInt]
  omega

theorem anyDown_ofBitmap_eq_false_iff (bitmap : Int) :
    (ofBitmap bitmap).anyDown = false ↔ bitmap % 65536 = 0 := by
  have zeroUp : (ofBitmap 0).anyDown = false := rfl
  constructor
  · intro up
    exact (ofBitmap_eq_iff bitmap 0).mp (eq_of_released up zeroUp)
  · intro zero
    rw [(ofBitmap_eq_iff bitmap 0).mpr zero, zeroUp]

theorem lowest?_ofBitmap {bitmap : Int} (down : bitmap % 65536 ≠ 0) :
    ∃ key : Fin 16, (ofBitmap bitmap).lowest? = some key ∧
      IsLeast { bit : Nat | bitmap.testBit bit = true } key := by
  have pressed : (ofBitmap bitmap).anyDown = true :=
    eq_true_of_ne_false (mt (anyDown_ofBitmap_eq_false_iff bitmap).mp down)
  rcases Option.isSome_iff_exists.mp pressed with ⟨key, lowest⟩
  rcases lowest?_eq_some_iff.mp lowest with ⟨keyDown, least⟩
  rw [isDown_ofBitmap] at keyDown
  refine ⟨key, lowest, keyDown, fun bit set => Nat.le_of_not_lt fun lower => ?_⟩
  have up := least ⟨bit, lower.trans key.isLt⟩ lower
  rw [isDown_ofBitmap] at up
  exact Bool.false_ne_true (up.symm.trans set)

end Keypad

namespace Machine

theorem skipIf_not (machine : Machine) (condition : Bool) :
    machine.skipIf (!condition) =
      if condition then machine else { machine with pc := machine.pc + 2 } := by
  cases condition <;> rfl

theorem waitForKey_of_none {machine : Machine} (x : Register)
    (up : machine.keypad.lowest? = none) :
    machine.waitForKey x = { machine with pc := machine.pc - 2, waiting := some x } := by
  rw [waitForKey, up]

theorem waitForKey_of_some {machine : Machine} (x : Register) {key : Fin 16}
    (lowest : machine.keypad.lowest? = some key) :
    machine.waitForKey x = { machine with v := machine.v.put x (.ofNat key), waiting := none } := by
  rw [waitForKey, lowest]

structure ReadsKeys (machine : Machine) (bitmap : Int) (x : Register) : Prop where
  skipKey : (machine.setKeys bitmap).execute ⟨.skipKey, x⟩ =
    .ok (if bitmap.testBit (machine.v[x].toNat % 16) then
      { machine.setKeys bitmap with pc := machine.pc + 2 }
    else
      machine.setKeys bitmap)
  skipNoKey : (machine.setKeys bitmap).execute ⟨.skipNoKey, x⟩ =
    .ok (if bitmap.testBit (machine.v[x].toNat % 16) then
      machine.setKeys bitmap
    else
      { machine.setKeys bitmap with pc := machine.pc + 2 })
  waits : bitmap % 65536 = 0 →
    (machine.setKeys bitmap).execute ⟨.waitKey, x⟩ =
      .ok { machine.setKeys bitmap with pc := machine.pc - 2, waiting := some x }
  takes : bitmap % 65536 ≠ 0 →
    ∃ key : Nat, IsLeast { bit : Nat | bitmap.testBit bit = true } key ∧ key < 16 ∧
      (machine.setKeys bitmap).execute ⟨.waitKey, x⟩ =
        .ok { machine.setKeys bitmap with v := machine.v.put x (.ofNat key), waiting := none }
  blocked : (machine.setKeys bitmap).blocked = true ↔
    machine.waiting.isSome = true ∧ bitmap % 65536 = 0
  steps : ∀ instruction, machine.Points instruction → (machine.setKeys bitmap).blocked = false →
    (machine.setKeys bitmap).step = (machine.advanced.setKeys bitmap).execute instruction
  sameKeys : ∀ other, machine.setKeys other = machine.setKeys bitmap ↔
    other % 65536 = bitmap % 65536
  replaces : ∀ earlier, (machine.setKeys earlier).setKeys bitmap = machine.setKeys bitmap

/-- All instructions that look at the keys see the bits of the bitmap they were set from, whatever
its size and sign. -/
theorem readsKeys (machine : Machine) (bitmap : Int) (x : Register) :
    machine.ReadsKeys bitmap x where
  skipKey := by
    have named := Keypad.isDown_ofBitmap bitmap (lastDigit machine.v[x])
    exact congrArg (fun down => Except.ok ((machine.setKeys bitmap).skipIf down)) named
  skipNoKey := by
    have named := Keypad.isDown_ofBitmap bitmap (lastDigit machine.v[x])
    refine (congrArg (fun down => Except.ok ((machine.setKeys bitmap).skipIf !down)) named).trans ?_
    rw [skipIf_not]
    rfl
  waits zero := by
    have up := (Keypad.anyDown_ofBitmap_eq_false_iff bitmap).mpr zero
    have missing := Option.isSome_eq_false_iff.mp up
    exact congrArg Except.ok (waitForKey_of_none _ (Option.isNone_iff_eq_none.mp missing))
  takes down := by
    rcases Keypad.lowest?_ofBitmap down with ⟨key, lowest, least⟩
    exact ⟨key, least, key.isLt, congrArg Except.ok (waitForKey_of_some _ lowest)⟩
  blocked := by
    rw [← Keypad.anyDown_ofBitmap_eq_false_iff, Machine.blocked, Bool.and_eq_true,
      Bool.not_eq_true']
    rfl
  steps instruction points free := step_of_points free points
  sameKeys other := by
    rw [← Keypad.ofBitmap_eq_iff]
    exact ⟨congrArg Machine.keypad, congrArg fun keypad => { machine with keypad }⟩
  replaces earlier := rfl

end Machine

end Chip8
