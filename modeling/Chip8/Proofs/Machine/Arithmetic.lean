import Chip8.Machine.Execute

/-! # Arithmetic on registers

One equation of whole numbers pins the result and the flag of an arithmetic operation together: the
sum with its carry, the difference with its borrow, the two parts of a byte that is shifted. It is
about the registers as they were, although the flag is written last and may take the place of the
result or of an operand.
-/

namespace Chip8

namespace Alu

/-- What an operation makes of the bytes `a` and `b`: the result and, for the arithmetic ones, the
flag. Shifts are of the byte `source`. -/
inductive Yields (a b source : Nat) : Alu → Nat → Option Nat → Prop
  | copy : Yields a b source .copy b none
  | or : Yields a b source .or (a ||| b) none
  | and : Yields a b source .and (a &&& b) none
  | xor : Yields a b source .xor (a ^^^ b) none
  | add {result flag : Nat} (exact : result + 256 * flag = a + b) :
      Yields a b source .add result (some flag)
  | sub {result flag : Nat} (exact : (result : Int) = a - b + 256 * (1 - flag)) :
      Yields a b source .sub result (some flag)
  | shr {result flag : Nat} (exact : 2 * result + flag = source) :
      Yields a b source .shr result (some flag)
  | subn {result flag : Nat} (exact : (result : Int) = b - a + 256 * (1 - flag)) :
      Yields a b source .subn result (some flag)
  | shl {result flag : Nat} (exact : result + 256 * flag = 2 * source) :
      Yields a b source .shl result (some flag)

/-! ## Single bytes -/

theorem toNat_flag (condition : Bool) : (flag condition).toNat = condition.toNat := by
  cases condition <;> rfl

theorem toNat_add_carry (a b : UInt8) :
    (a + b).toNat + 256 * (flag (a.toNat + b.toNat > 255)).toNat = a.toNat + b.toNat := by
  have aBound := a.toNat_lt
  have bBound := b.toNat_lt
  rw [toNat_flag, UInt8.toNat_add]
  by_cases carry : a.toNat + b.toNat > 255
  · rw [decide_eq_true carry, Bool.toNat_true]
    omega
  · rw [decide_eq_false carry, Bool.toNat_false]
    omega

theorem toNat_sub_borrow (a b : UInt8) :
    ((a - b).toNat : Int) = a.toNat - b.toNat + 256 * (1 - (flag (a ≥ b)).toNat) := by
  have aBound := a.toNat_lt
  have bBound := b.toNat_lt
  rw [toNat_flag, UInt8.toNat_sub]
  by_cases kept : b.toNat ≤ a.toNat
  · rw [decide_eq_true (UInt8.le_iff_toNat_le.mpr kept), Bool.toNat_true]
    omega
  · rw [decide_eq_false (mt UInt8.le_iff_toNat_le.mp kept), Bool.toNat_false]
    omega

theorem toNat_shr_dropped (a : UInt8) : 2 * (a >>> 1).toNat + (a &&& 1).toNat = a.toNat := by
  have half : (a >>> 1).toNat = a.toNat / 2 := Nat.shiftRight_eq_div_pow a.toNat 1
  have last : (a &&& 1).toNat = a.toNat % 2 := Nat.and_one_is_mod a.toNat
  rw [half, last]
  exact Nat.div_add_mod _ _

theorem toNat_shl_dropped (a : UInt8) :
    (a <<< 1).toNat + 256 * (a >>> 7).toNat = 2 * a.toNat := by
  have bound := a.toNat_lt
  have double : (a <<< 1).toNat = a.toNat <<< 1 % 256 := UInt8.toNat_shiftLeft a 1
  have first : (a >>> 7).toNat = a.toNat / 128 := Nat.shiftRight_eq_div_pow a.toNat 7
  rw [double, first, Nat.shiftLeft_eq]
  omega

theorem yields_apply (operation : Alu) (a b source : UInt8) :
    operation.Yields a.toNat b.toNat source.toNat
      (operation.apply (if operation.isShift then source else a) b).1.toNat
      ((operation.apply (if operation.isShift then source else a) b).2.map UInt8.toNat) := by
  cases operation with
  | copy => exact .copy
  | or =>
      change Yields _ _ _ .or (a ||| b).toNat none
      rw [UInt8.toNat_or]
      exact .or
  | and =>
      change Yields _ _ _ .and (a &&& b).toNat none
      rw [UInt8.toNat_and]
      exact .and
  | xor =>
      change Yields _ _ _ .xor (a ^^^ b).toNat none
      rw [UInt8.toNat_xor]
      exact .xor
  | add => exact .add (toNat_add_carry a b)
  | sub => exact .sub (toNat_sub_borrow a b)
  | shr => exact .shr (toNat_shr_dropped source)
  | subn => exact .subn (toNat_sub_borrow b a)
  | shl => exact .shl (toNat_shl_dropped source)

theorem toNat_le_one_of_apply {operation : Alu} {a b bit : UInt8}
    (flagged : (operation.apply a b).2 = some bit) : bit.toNat ≤ 1 := by
  cases operation with
  | copy | or | and | xor => cases flagged
  | add | sub | subn =>
      cases flagged
      rw [toNat_flag]
      exact Bool.toNat_le _
  | shr =>
      cases flagged
      have split := toNat_shr_dropped a
      have last : (a &&& 1).toNat = a.toNat % 2 := Nat.and_one_is_mod a.toNat
      omega
  | shl =>
      cases flagged
      have bound := a.toNat_lt
      have whole := toNat_shl_dropped a
      omega

end Alu

/-! ## Writing to registers -/

namespace Registers

variable (v : Registers) (x : Register) (result : UInt8) {flag : Option UInt8}

def record : Option UInt8 → Registers
  | some flag => (v.put x result).put flagRegister flag
  | none => v.put x result

theorem getElem_record_flag (bit : UInt8) : (v.record x result (some bit))[flagRegister] = bit := by
  rw [record, getElem_put]
  exact if_pos rfl

theorem getElem_record_self (kept : flag = none ∨ x ≠ flagRegister) :
    (v.record x result flag)[x] = result := by
  cases flag with
  | none =>
      rw [record, getElem_put]
      exact if_pos rfl
  | some bit =>
      have apart : x ≠ flagRegister := by simpa using kept
      rw [record, getElem_put_of_ne _ _ apart, getElem_put, if_pos rfl]

theorem getElem_record_other {other : Register} (different : other ≠ x)
    (kept : flag = none ∨ other ≠ flagRegister) :
    (v.record x result flag)[other] = v[other] := by
  cases flag with
  | none => exact getElem_put_of_ne v result different
  | some bit =>
      have apart : other ≠ flagRegister := by simpa using kept
      rw [record, getElem_put_of_ne _ _ apart, getElem_put_of_ne _ _ different]

end Registers

namespace Machine

theorem source_eq (machine : Machine) (operation : Alu) (x y : Register) :
    machine.source operation x y =
      if operation.isShift then (if machine.shiftUsesY then machine.v[y] else machine.v[x])
      else machine.v[x] := by
  rw [source]
  cases operation.isShift <;> rfl

theorem combine_of_apply {machine : Machine} {operation : Alu} {x y : Register} {result : UInt8}
    {flag : Option UInt8}
    (applied : operation.apply (machine.source operation x y) machine.v[y] = (result, flag)) :
    machine.combine operation x y = { machine with v := machine.v.record x result flag } := by
  rw [combine, applied]
  cases flag <;> rfl

/-- An operation on two registers is exact whichever registers they are: the flag register takes the
flag, else the first register takes the result, and no other register changes. -/
theorem combine_exact (machine : Machine) (operation : Alu) (x y : Register) :
    ∃ (result : UInt8) (flag : Option UInt8) (v : Registers),
      machine.execute ⟨.alu operation, (x, y)⟩ = .ok { machine with v } ∧
      operation.Yields machine.v[x].toNat machine.v[y].toNat
        (if machine.shiftUsesY then machine.v[y] else machine.v[x]).toNat
        result.toNat (flag.map UInt8.toNat) ∧
      (∀ bit, flag = some bit → bit.toNat ≤ 1 ∧ v[Registers.flagRegister] = bit) ∧
      (flag = none ∨ x ≠ Registers.flagRegister → v[x] = result) ∧
      ∀ other, other ≠ x → flag = none ∨ other ≠ Registers.flagRegister →
        v[other] = machine.v[other] := by
  have yields := operation.yields_apply machine.v[x] machine.v[y]
    (if machine.shiftUsesY then machine.v[y] else machine.v[x])
  rw [← source_eq] at yields
  cases applied : operation.apply (machine.source operation x y) machine.v[y] with
  | mk result flag =>
      rw [applied] at yields
      refine ⟨result, flag, _, congrArg Except.ok (combine_of_apply applied), yields, ?_, ?_, ?_⟩
      · rintro bit rfl
        exact ⟨Alu.toNat_le_one_of_apply (congrArg Prod.snd applied),
          machine.v.getElem_record_flag x result bit⟩
      · exact machine.v.getElem_record_self x result
      · intro other
        exact machine.v.getElem_record_other x result

end Machine

end Chip8
