import Chip8.Instruction
import Mathlib.Algebra.Group.Nat.Defs

/-! # Words and the opcode forms they match

The mask of every layout keeps the first digit and a number of last digits. An opcode matches a
word when both agree with its base, and `Opcode.ofWord?` finds the opcode that matches, the two
literals before `sys`.
-/

namespace Chip8

namespace Word

theorem toNat_kk (word : Word) : word.kk.toNat = word.toNat % 256 := by
  have bound := word.toNat_lt
  simp only [kk, low, UInt8.toNat_ofNat']
  omega

theorem toNat_and_mask {word mask : Word} (width : Nat) (narrow : width ≤ 12)
    (shape : mask.toNat = 15 * 2 ^ 12 + (2 ^ width - 1)) :
    (word &&& mask).toNat = word.toNat / 4096 * 4096 + word.toNat % 2 ^ width := by
  have bound := word.toNat_lt
  have small : 2 ^ width - 1 < 2 ^ 12 := by
    have powers : 2 ^ width ≤ 2 ^ 12 := Nat.pow_le_pow_right (by omega) narrow
    have positive : 0 < 2 ^ width := Nat.two_pow_pos width
    omega
  have first : (word.toNat &&& mask.toNat) / 2 ^ 12 = word.toNat / 4096 := by
    have maskFirst : mask.toNat / 2 ^ 12 = 2 ^ 4 - 1 := by omega
    rw [Nat.and_div_two_pow, maskFirst, Nat.and_two_pow_sub_one_eq_mod]
    omega
  have last : (word.toNat &&& mask.toNat) % 2 ^ 12 = word.toNat % 2 ^ width := by
    have maskLast : mask.toNat % 2 ^ 12 = 2 ^ width - 1 := by omega
    rw [Nat.and_mod_two_pow, maskLast, Nat.and_two_pow_sub_one_eq_mod]
    exact Nat.mod_mod_of_dvd _ (Nat.pow_dvd_pow 2 narrow)
  have parts := Nat.div_add_mod (word.toNat &&& mask.toNat) (2 ^ 12)
  rw [first, last] at parts
  rw [UInt16.toNat_and]
  omega

end Word

/-! ## Masks -/

namespace Layout

def fixedTail : Layout → Nat
  | .literal => 12
  | .register => 8
  | .registers => 4
  | .address | .registerByte | .sprite => 0

theorem toNat_and_fixedBits (layout : Layout) (word : Word) :
    (word &&& layout.fixedBits).toNat =
      word.toNat / 4096 * 4096 + word.toNat % 2 ^ layout.fixedTail := by
  apply Word.toNat_and_mask
  · cases layout <;> decide
  · cases layout <;> decide

theorem and_fixedBits_literal (word : Word) : word &&& literal.fixedBits = word := by
  have bits := literal.toNat_and_fixedBits word
  apply UInt16.toNat_inj.mp
  rw [bits]
  simp only [fixedTail]
  omega

/-- A layout leaves no bit out: those it does not fix are operands. -/
theorem fixedBits_add_pack (layout : Layout) (word : Word) :
    (word &&& layout.fixedBits).toNat + layout.pack (layout.unpack word) = word.toNat := by
  rw [toNat_and_fixedBits]
  cases layout <;>
    simp only [fixedTail, pack, unpack, Word.addr, Word.x, Word.y, Word.n, Word.toNat_kk] <;>
    omega

theorem toNat_add_pack (layout : Layout) {base : Word}
    (free : layout.pack (layout.unpack base) = 0) (operands : layout.Operands) :
    (base + UInt16.ofNat (layout.pack operands)).toNat = base.toNat + layout.pack operands := by
  have bound := base.toNat_lt
  rw [UInt16.toNat_add, UInt16.toNat_ofNat']
  cases layout with
  | literal =>
      simp only [pack]
      omega
  | address =>
      have small := operands.isLt
      simp only [pack, unpack, Word.addr] at free ⊢
      omega
  | registerByte =>
      rcases operands with ⟨x, kk⟩
      have smallX := x.isLt
      have smallByte := kk.toNat_lt
      simp only [pack, unpack, Word.x, Word.toNat_kk] at free ⊢
      omega
  | registers =>
      rcases operands with ⟨x, y⟩
      have smallX := x.isLt
      have smallY := y.isLt
      simp only [pack, unpack, Word.x, Word.y] at free ⊢
      omega
  | sprite =>
      rcases operands with ⟨x, y, n⟩
      have smallX := x.isLt
      have smallY := y.isLt
      have smallN := n.isLt
      simp only [pack, unpack, Word.x, Word.y, Word.n] at free ⊢
      omega
  | register =>
      have small := operands.isLt
      simp only [pack, unpack, Word.x] at free ⊢
      omega

theorem unpack_add_pack (layout : Layout) {base : Word}
    (free : layout.pack (layout.unpack base) = 0) (operands : layout.Operands) :
    layout.unpack (base + UInt16.ofNat (layout.pack operands)) = operands := by
  have sum := layout.toNat_add_pack free operands
  cases layout with
  | literal => rfl
  | address =>
      have small := operands.isLt
      apply Fin.ext
      simp only [pack, unpack, Word.addr] at free sum ⊢
      omega
  | registerByte =>
      rcases operands with ⟨x, kk⟩
      have smallX := x.isLt
      have smallByte := kk.toNat_lt
      simp only [pack, unpack, Word.x, Word.toNat_kk] at free sum ⊢
      refine Prod.ext (Fin.ext ?_) (UInt8.toNat_inj.mp ?_)
      · simp only
        omega
      · simp only [Word.toNat_kk]
        omega
  | registers =>
      rcases operands with ⟨x, y⟩
      have smallX := x.isLt
      have smallY := y.isLt
      simp only [pack, unpack, Word.x, Word.y] at free sum ⊢
      refine Prod.ext (Fin.ext ?_) (Fin.ext ?_) <;> simp only <;> omega
  | sprite =>
      rcases operands with ⟨x, y, n⟩
      have smallX := x.isLt
      have smallY := y.isLt
      have smallN := n.isLt
      simp only [pack, unpack, Word.x, Word.y, Word.n] at free sum ⊢
      refine Prod.ext (Fin.ext ?_) (Prod.ext (Fin.ext ?_) (Fin.ext ?_)) <;> simp only <;> omega
  | register =>
      have small := operands.isLt
      apply Fin.ext
      simp only [pack, unpack, Word.x] at free sum ⊢
      omega

end Layout

/-! ## Opcodes -/

namespace Opcode

/-- A word matches an opcode when it has the opcode's first digit and its fixed last bits. -/
theorem and_fixedBits_eq_base_iff (opcode : Opcode) (word : Word) :
    word &&& opcode.fixedBits = opcode.base ↔
      word.family = opcode.base.family ∧
        word.toNat % 2 ^ opcode.layout.fixedTail =
          opcode.base.toNat % 2 ^ opcode.layout.fixedTail := by
  have wordBits := opcode.layout.toNat_and_fixedBits word
  have baseBits := opcode.layout.toNat_and_fixedBits opcode.base
  have baseFixed := opcode.base_and_fixedBits
  rw [fixedBits] at baseFixed ⊢
  rw [baseFixed] at baseBits
  have wordTail := Nat.mod_lt word.toNat (Nat.two_pow_pos opcode.layout.fixedTail)
  have baseTail := Nat.mod_lt opcode.base.toNat (Nat.two_pow_pos opcode.layout.fixedTail)
  have narrow : 2 ^ opcode.layout.fixedTail ≤ 4096 := by
    cases opcode.layout <;> decide
  rw [← UInt16.toNat_inj, wordBits]
  simp only [Word.family]
  omega

private theorem tail_free {layout : Layout} (free : layout.fixedTail = 0) (left right : Nat) :
    left % 2 ^ layout.fixedTail = right % 2 ^ layout.fixedTail := by
  rw [free]
  omega

theorem and_fixedBits_of_ofWord? {word : Word} {opcode : Opcode}
    (found : ofWord? word = some opcode) : word &&& opcode.fixedBits = opcode.base := by
  rw [and_fixedBits_eq_base_iff]
  rw [ofWord?] at found
  split at found
  case h_1 family =>
    rw [ofSystemWord] at found
    split at found
    · cases found
      subst word
      exact ⟨rfl, rfl⟩
    · split at found
      · cases found
        subst word
        exact ⟨rfl, rfl⟩
      · cases found
        exact ⟨family, tail_free rfl _ _⟩
  case h_6 family | h_10 family =>
    split at found
    next zero =>
      cases found
      exact ⟨family, congrArg Fin.val zero⟩
    next => cases found
  case h_9 family =>
    rcases Option.map_eq_some_iff.mp found with ⟨operation, coded, rfl⟩
    unfold Alu.ofCode? at coded
    split at coded
    case h_10 => cases coded
    all_goals
      rename_i code
      cases coded
      exact ⟨family, code⟩
  case h_15 family =>
    unfold ofKeyCode? at found
    split at found
    case h_3 => cases found
    all_goals
      rename_i code
      cases found
      exact ⟨family, word.toNat_kk.symm.trans code⟩
  case h_16 family =>
    unfold ofPeripheralCode? at found
    split at found
    case h_10 => cases found
    all_goals
      rename_i code
      cases found
      exact ⟨family, word.toNat_kk.symm.trans code⟩
  case h_17 => cases found
  all_goals
    rename_i family
    cases found
    exact ⟨family, tail_free rfl _ _⟩

/-- An opcode that matches a word is found, unless it is `sys` and a literal takes its place. -/
theorem ofWord?_of_and_fixedBits {word : Word} {opcode : Opcode}
    (agrees : word &&& opcode.fixedBits = opcode.base) :
    ofWord? word = some (if opcode = .sys then ofSystemWord word else opcode) := by
  rcases (and_fixedBits_eq_base_iff opcode word).mp agrees with ⟨family, tail⟩
  rw [ofWord?, family]
  cases opcode with
  | clearScreen | ret =>
      rcases (Layout.and_fixedBits_literal word).symm.trans agrees with rfl
      rfl
  | skipEq | skipNe =>
      have zero : word.n = 0 := Fin.ext tail
      rw [zero]
      rfl
  | alu operation =>
      have code : word.n.val = operation.code := by
        refine Eq.trans tail ?_
        cases operation <;> rfl
      rw [code]
      cases operation <;> rfl
  | skipKey | skipNoKey | readDelay | waitKey | setDelay | setSound | addIndex | pointFont
  | storeDecimal | storeRegisters | loadRegisters =>
      have code := word.toNat_kk.trans tail
      rw [code]
      rfl
  | _ => rfl

/-! ### Search under masks -/

private theorem fixedBits_mem_masks (opcode : Opcode) : opcode.fixedBits ∈ masks := by
  rw [fixedBits]
  cases opcode.layout <;> decide

private theorem and_fixedBits_of_search? {word : Word} {opcode : Opcode}
    (found : search? word = some opcode) : word &&& opcode.fixedBits = opcode.base := by
  rcases List.exists_of_findSome?_eq_some found with ⟨mask, _, matched⟩
  have keyed := List.find?_some matched
  rcases of_decide_eq_true keyed with ⟨rfl, base⟩
  exact base.symm

theorem search?_eq_none_iff (word : Word) :
    search? word = none ↔ ∀ opcode : Opcode, word &&& opcode.fixedBits ≠ opcode.base := by
  rw [search?, List.findSome?_eq_none_iff]
  constructor
  · intro missing opcode agrees
    have absent := List.find?_eq_none.mp (missing _ opcode.fixedBits_mem_masks) _ opcode.mem_all
    exact absent (decide_eq_true ⟨rfl, agrees.symm⟩)
  · intro foreign mask _
    refine List.find?_eq_none.mpr fun opcode _ keyed => ?_
    rcases of_decide_eq_true keyed with ⟨rfl, base⟩
    exact foreign opcode base.symm

private theorem ofWord?_of_search? {word : Word} {opcode : Opcode}
    (found : search? word = some opcode) : ofWord? word = some opcode := by
  rw [ofWord?_of_and_fixedBits (and_fixedBits_of_search? found)]
  by_cases native : opcode = .sys
  · subst opcode
    rw [if_pos rfl, ofSystemWord]
    -- The literals are found under the first mask, before `sys` is tried.
    split
    · subst word
      exact found
    · split
      · subst word
        exact found
      · rfl
  · rw [if_neg native]

/-- The search under masks finds what the first digit and the last ones select. -/
theorem search?_eq_ofWord? (word : Word) : search? word = ofWord? word := by
  cases found : search? word with
  | some opcode => exact (ofWord?_of_search? found).symm
  | none =>
      cases selected : ofWord? word with
      | none => rfl
      | some opcode =>
          have agrees := and_fixedBits_of_ofWord? selected
          exact absurd agrees ((search?_eq_none_iff word).mp found opcode)

theorem ofWord?_eq_none_iff (word : Word) :
    ofWord? word = none ↔ ∀ opcode : Opcode, word &&& opcode.fixedBits ≠ opcode.base := by
  rw [← search?_eq_ofWord?, search?_eq_none_iff]

end Opcode

/-! ## Instructions -/

namespace Instruction

theorem encode_unpack {opcode : Opcode} {word : Word}
    (agrees : word &&& opcode.fixedBits = opcode.base) : (unpack opcode word).encode = word := by
  have parts := opcode.layout.fixedBits_add_pack word
  have bound := word.toNat_lt
  rw [Opcode.fixedBits] at agrees
  rw [agrees] at parts
  apply UInt16.toNat_inj.mp
  simp only [encode, unpack, UInt16.toNat_add, UInt16.toNat_ofNat']
  omega

private theorem pack_unpack_base (opcode : Opcode) :
    opcode.layout.pack (opcode.layout.unpack opcode.base) = 0 := by
  have parts := opcode.layout.fixedBits_add_pack opcode.base
  have fixed := opcode.base_and_fixedBits
  rw [Opcode.fixedBits] at fixed
  rw [fixed] at parts
  omega

theorem unpack_encode (instruction : Instruction) :
    unpack instruction.opcode instruction.encode = instruction := by
  rw [unpack, encode, Layout.unpack_add_pack _ (pack_unpack_base instruction.opcode)]

theorem encode_and_fixedBits (instruction : Instruction) :
    instruction.encode &&& instruction.opcode.fixedBits = instruction.opcode.base := by
  have free := pack_unpack_base instruction.opcode
  have parts := instruction.opcode.layout.fixedBits_add_pack instruction.encode
  have sum := instruction.opcode.layout.toNat_add_pack free instruction.operands
  have held := instruction.opcode.layout.unpack_add_pack free instruction.operands
  apply UInt16.toNat_inj.mp
  rw [encode, Opcode.fixedBits] at *
  rw [held] at parts
  omega

theorem encode_of_ofWord? {word : Word} {instruction : Instruction}
    (decoded : ofWord? word = some instruction) : instruction.encode = word := by
  rcases Option.map_eq_some_iff.mp decoded with ⟨opcode, found, rfl⟩
  exact encode_unpack (Opcode.and_fixedBits_of_ofWord? found)

theorem ofWord?_encode {instruction : Instruction} (proper : instruction.opcode ≠ .sys) :
    ofWord? instruction.encode = some instruction := by
  have found := Opcode.ofWord?_of_and_fixedBits (encode_and_fixedBits instruction)
  rw [if_neg proper] at found
  rw [ofWord?, found, Option.map_some, unpack_encode]

end Instruction

end Chip8
