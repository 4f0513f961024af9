import Chip8.Proofs.Instruction.Encoding

/-! # The grammar of instruction words

`Undefined` lists, family by family, the words that no opcode has; every other word is read as an
instruction. Read back from its word an instruction is the same, but for two native calls whose
words are those of the literals: `canonical` says what they are read as.
-/

namespace Chip8

/-! ## Words without an opcode -/

namespace Word

inductive Undefined (word : Word) : Prop
  | comparison (family : word.family = 0x5 ∨ word.family = 0x9) (digit : word.n ≠ 0)
  | operation (family : word.family = 0x8)
      (digit : (0x8 ≤ word.n.val ∧ word.n.val ≤ 0xD) ∨ word.n.val = 0xF)
  | key (family : word.family = 0xE) (byte : word.kk.toNat ∉ [0x9E, 0xA1])
  | peripheral (family : word.family = 0xF)
      (byte : word.kk.toNat ∉ [0x07, 0x0A, 0x15, 0x18, 0x1E, 0x29, 0x33, 0x55, 0x65])

theorem family_lt (word : Word) : word.family < 16 := by
  have bound := word.toNat_lt
  rw [family]
  omega

end Word

theorem Alu.ofCode?_eq_none_iff (digit : Nibble) :
    ofCode? digit.val = none ↔ (0x8 ≤ digit.val ∧ digit.val ≤ 0xD) ∨ digit.val = 0xF := by
  revert digit
  decide

namespace Opcode

theorem ofKeyCode?_eq_none_iff (code : Nat) : ofKeyCode? code = none ↔ code ∉ [0x9E, 0xA1] := by
  unfold ofKeyCode?
  split
  case h_3 => simp_all
  all_goals simp

theorem ofPeripheralCode?_eq_none_iff (code : Nat) :
    ofPeripheralCode? code = none ↔
      code ∉ [0x07, 0x0A, 0x15, 0x18, 0x1E, 0x29, 0x33, 0x55, 0x65] := by
  unfold ofPeripheralCode?
  split
  case h_10 => simp_all
  all_goals simp

theorem ofWord?_eq_none_iff_undefined (word : Word) : ofWord? word = none ↔ word.Undefined := by
  constructor
  · intro missing
    rw [ofWord?] at missing
    split at missing
    case h_6 family =>
      exact .comparison (.inl family) (by simpa using missing)
    case h_10 family =>
      exact .comparison (.inr family) (by simpa using missing)
    case h_9 family =>
      exact .operation family ((Alu.ofCode?_eq_none_iff _).mp (Option.map_eq_none_iff.mp missing))
    case h_15 family => exact .key family ((ofKeyCode?_eq_none_iff _).mp missing)
    case h_16 family => exact .peripheral family ((ofPeripheralCode?_eq_none_iff _).mp missing)
    case h_17 =>
      have bound := word.family_lt
      grind
    all_goals cases missing
  · intro undefined
    cases undefined with
    | comparison family digit =>
        rcases family with family | family
        · simp only [ofWord?, family, if_neg digit]
        · simp only [ofWord?, family, if_neg digit]
    | operation family digit =>
        simp only [ofWord?, family, (Alu.ofCode?_eq_none_iff _).mpr digit, Option.map_none]
    | key family byte => simp only [ofWord?, family, (ofKeyCode?_eq_none_iff _).mpr byte]
    | peripheral family byte =>
        simp only [ofWord?, family, (ofPeripheralCode?_eq_none_iff _).mpr byte]

end Opcode

/-! ## Instructions whose words are read otherwise -/

namespace Instruction

theorem ofWord?_eq_none_iff (word : Word) : ofWord? word = none ↔ word.Undefined := by
  rw [ofWord?, Option.map_eq_none_iff, Opcode.ofWord?_eq_none_iff_undefined]

/-- The instruction is a native call whose word is that of a literal. -/
def Shadowed (instruction : Instruction) : Prop :=
  instruction = ⟨.sys, 0x0E0⟩ ∨ instruction = ⟨.sys, 0x0EE⟩

instance (instruction : Instruction) : Decidable instruction.Shadowed :=
  inferInstanceAs (Decidable (_ ∨ _))

/-- The instruction that the word of an instruction is read as. -/
def canonical (instruction : Instruction) : Instruction :=
  if instruction = ⟨.sys, 0x0E0⟩ then ⟨.clearScreen, ()⟩
  else if instruction = ⟨.sys, 0x0EE⟩ then ⟨.ret, ()⟩
  else instruction

theorem canonical_eq_self_iff (instruction : Instruction) :
    instruction.canonical = instruction ↔ ¬instruction.Shadowed := by
  unfold canonical Shadowed
  split
  next equal =>
    subst equal
    decide
  next notClear =>
    split
    next equal =>
      subst equal
      decide
    next notReturn => simp [notClear, notReturn]

theorem toNat_encode_sys (target : Address) : (encode ⟨.sys, target⟩).toNat = target.val := by
  have bound := target.isLt
  have base : Opcode.sys.base = 0 := rfl
  simp only [encode, Layout.pack, base, UInt16.zero_add, UInt16.toNat_ofNat']
  omega

private theorem ofWord?_encode_sys {target : Address} (free : ¬Shadowed ⟨.sys, target⟩) :
    ofWord? (encode ⟨.sys, target⟩) = some ⟨.sys, target⟩ := by
  have found := Opcode.ofWord?_of_and_fixedBits (encode_and_fixedBits ⟨.sys, target⟩)
  have differs (literal : Address) (other : (⟨.sys, target⟩ : Instruction) ≠ ⟨.sys, literal⟩) :
      encode ⟨.sys, target⟩ ≠ encode ⟨.sys, literal⟩ := by
    intro equal
    apply other
    have values := congrArg UInt16.toNat equal
    rw [toNat_encode_sys, toNat_encode_sys] at values
    rw [Fin.ext values]
  rcases not_or.mp free with ⟨notClear, notReturn⟩
  have native : Opcode.ofSystemWord (encode ⟨.sys, target⟩) = .sys := by
    exact (if_neg (differs 0x0E0 notClear)).trans (if_neg (differs 0x0EE notReturn))
  rw [if_pos rfl, native] at found
  rw [ofWord?, found, Option.map_some]
  exact congrArg some (unpack_encode ⟨.sys, target⟩)

theorem ofWord?_encode_eq (instruction : Instruction) :
    ofWord? instruction.encode = some instruction.canonical := by
  by_cases shadowed : instruction.Shadowed
  · rcases shadowed with rfl | rfl
    · rfl
    · rfl
  · rw [(canonical_eq_self_iff instruction).mpr shadowed]
    by_cases native : instruction.opcode = .sys
    · rcases instruction with ⟨opcode, operands⟩
      cases native
      exact ofWord?_encode_sys shadowed
    · exact ofWord?_encode native

theorem encode_canonical (instruction : Instruction) :
    instruction.canonical.encode = instruction.encode :=
  encode_of_ofWord? (ofWord?_encode_eq instruction)

end Instruction

end Chip8
