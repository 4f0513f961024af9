import Chip8.Proofs.Instruction.Encoding
import Mathlib.Algebra.Order.Ring.Int
import Mathlib.Data.Nat.Cast.Order.Ring

/-! # Instructions and the numbers of their operands

Numbers make an instruction exactly when they are the operands that some word of the opcode holds.
There is one such word. It is also written from the numbers themselves, each under the mask of its
field: the masks keep every bit of an operand, and no operand reaches a fixed bit.
-/

namespace Chip8

/-! ## Numbers that fit -/

theorem Field.mem_all (field : Field) : field ∈ all := by
  cases field <;> decide

theorem Fields.ext_get {left right : Fields} (same : ∀ field, left.get field = right.get field) :
    left = right := by
  rcases left with ⟨x, y, kk, addr, n⟩
  rcases right with ⟨x', y', kk', addr', n'⟩
  cases same .x
  cases same .y
  cases same .kk
  cases same .addr
  cases same .n
  rfl

namespace Layout

/-- The numbers fit their fields, and those of fields that are not used are zero. -/
def Fits (layout : Layout) (fields : Fields) : Prop :=
  ∀ field : Field, (field ∈ layout.fields ∨ fields.get field = 0) ∧
    0 ≤ fields.get field ∧ fields.get field < field.limit

theorem fits_toFields (layout : Layout) (operands : layout.Operands) :
    layout.Fits (layout.toFields operands) := by
  intro field
  cases layout with
  | literal => cases field <;> simp [toFields, Layout.fields, Fields.get, Field.limit]
  | address => cases field <;> simp [toFields, Layout.fields, Fields.get, Field.limit]
  | registerByte =>
      rcases operands with ⟨x, kk⟩
      have small : kk.toNat < 256 := kk.toNat_lt
      cases field <;> simp [toFields, Layout.fields, Fields.get, Field.limit, small]
  | registers =>
      rcases operands with ⟨x, y⟩
      cases field <;> simp [toFields, Layout.fields, Fields.get, Field.limit]
  | sprite =>
      rcases operands with ⟨x, y, n⟩
      cases field <;> simp [toFields, Layout.fields, Fields.get, Field.limit]
  | register => cases field <;> simp [toFields, Layout.fields, Fields.get, Field.limit]

theorem toFields_ofFields {layout : Layout} {fields : Fields} (fits : layout.Fits fields) :
    layout.toFields (layout.ofFields fields) = fields := by
  have x := fits .x
  have y := fits .y
  have kk := fits .kk
  have addr := fits .addr
  have n := fits .n
  rcases fields with ⟨fx, fy, fkk, faddr, fn⟩
  cases layout <;>
    simp [Layout.fields, Fields.get, Field.limit, toFields, ofFields] at * <;>
    omega

end Layout

namespace Instruction

theorem fieldError?_eq_none_iff {opcode : Opcode} {field : Field} {value : Int} :
    fieldError? opcode field value = none ↔
      (field ∈ opcode.layout.fields ∨ value = 0) ∧ 0 ≤ value ∧ value < field.limit := by
  unfold fieldError?
  split
  next unused =>
    refine iff_of_false (Option.some_ne_none _) ?_
    rintro ⟨used | zero, _⟩
    · exact unused.1 used
    · exact unused.2 zero
  next used =>
    have allowed : field ∈ opcode.layout.fields ∨ value = 0 := by
      by_cases member : field ∈ opcode.layout.fields
      · exact .inl member
      · exact .inr (Decidable.not_not.mp fun nonzero => used ⟨member, nonzero⟩)
    split
    next inside => exact iff_of_true rfl ⟨allowed, inside⟩
    next outside => exact iff_of_false (Option.some_ne_none _) fun holds => outside holds.2

theorem ofFields_eq_ok_iff {opcode : Opcode} {fields : Fields} {instruction : Instruction} :
    ofFields opcode fields = .ok instruction ↔
      instruction.opcode = opcode ∧ instruction.fields = fields := by
  constructor
  · intro accepted
    unfold ofFields at accepted
    split at accepted
    next => cases accepted
    next fine =>
      cases accepted
      refine ⟨rfl, Layout.toFields_ofFields fun field => ?_⟩
      exact fieldError?_eq_none_iff.mp
        (List.findSome?_eq_none_iff.mp fine field (Field.mem_all field))
  · rintro ⟨rfl, rfl⟩
    have fine : (Field.all.findSome? fun field =>
        fieldError? instruction.opcode field (instruction.fields.get field)) = none := by
      rw [List.findSome?_eq_none_iff]
      intro field _
      exact fieldError?_eq_none_iff.mpr (Layout.fits_toFields _ instruction.operands field)
    rw [ofFields]
    simp only [fine]
    rw [Instruction.fields, Layout.ofFields_toFields]

end Instruction

/-! ## Masks -/

namespace Word

def Within (word bits : Word) : Prop := word &&& bits = word

theorem Within.or {left right leftBits rightBits : Word} (leftWithin : left.Within leftBits)
    (rightWithin : right.Within rightBits) :
    Within (left ||| right) (leftBits ||| rightBits) := by
  have bits : ∀ left right leftBit rightBit : Bool, (left && leftBit) = left →
      (right && rightBit) = right →
      ((left || right) && (leftBit || rightBit)) = (left || right) := by decide
  simp only [Within, ← UInt16.toBitVec_inj, UInt16.toBitVec_and, UInt16.toBitVec_or] at *
  refine BitVec.eq_of_getLsbD_eq fun position _ => ?_
  have leftSame := congrArg (BitVec.getLsbD · position) leftWithin
  have rightSame := congrArg (BitVec.getLsbD · position) rightWithin
  simp only [BitVec.getLsbD_and, BitVec.getLsbD_or] at leftSame rightSame ⊢
  exact bits _ _ _ _ leftSame rightSame

/-- Words whose bits are apart are added without a carry. -/
theorem or_eq_add {left right leftBits rightBits : Word} (leftWithin : left.Within leftBits)
    (rightWithin : right.Within rightBits) (apart : leftBits &&& rightBits = 0) :
    left ||| right = left + right := by
  have disjoint : left &&& right = 0 := by
    calc left &&& right = (left &&& leftBits) &&& (right &&& rightBits) := by
          rw [leftWithin, rightWithin]
      _ = (left &&& right) &&& (leftBits &&& rightBits) := by ac_rfl
      _ = 0 := by rw [apart, UInt16.and_zero]
  apply UInt16.toBitVec_inj.mp
  rw [UInt16.toBitVec_or, UInt16.toBitVec_add]
  exact (BitVec.add_eq_or_of_and_eq_zero _ _ (congrArg UInt16.toBitVec disjoint)).symm

end Word

namespace Field

def width : Field → Nat
  | .x | .y | .n => 4
  | .kk => 8
  | .addr => 12

def shift : Field → Nat
  | .x => 8
  | .y => 4
  | .kk | .addr | .n => 0

def span : Field → Word
  | .x => 0x0F00
  | .y => 0x00F0
  | .kk => 0x00FF
  | .addr => 0x0FFF
  | .n => 0x000F

def mask : Field → Word
  | .x | .y | .n => 0xF
  | .kk => 0xFF
  | .addr => 0x0FFF

def place (field : Field) (value : Int) : Word :=
  (UInt16.ofInt value &&& field.mask) <<< UInt16.ofNat field.shift

theorem limit_eq (field : Field) : field.limit = 2 ^ field.width := by
  cases field <;> rfl

theorem toNat_mask (field : Field) : field.mask.toNat = 2 ^ field.width - 1 := by
  cases field <;> rfl

theorem place_within (field : Field) (value : Int) : (field.place value).Within field.span := by
  have span : field.span = field.mask <<< UInt16.ofNat field.shift := by
    cases field <;> decide
  rw [Word.Within, place, span, UInt16.shiftLeft_and, UInt16.and_assoc, UInt16.and_self]

theorem ofInt_natCast (value : Nat) : UInt16.ofInt (value : Int) = UInt16.ofNat value := by
  apply UInt16.toNat_inj.mp
  rw [UInt16.ofInt, UInt16.toNat_ofNat', UInt16.toNat_ofNat']
  omega

theorem place_of_fits {field : Field} {value : Nat} (fits : value < field.limit) :
    field.place value = UInt16.ofNat (value * 2 ^ field.shift) := by
  have small : field.limit ≤ 4096 ∧ field.shift < 16 := by cases field <;> decide
  have shift : field.shift % 2 ^ 16 % 16 = field.shift := by omega
  have masked : (UInt16.ofNat value &&& field.mask).toNat = value := by
    have valueSmall : value % 2 ^ 16 = value := by omega
    rw [UInt16.toNat_and, UInt16.toNat_ofNat', valueSmall, toNat_mask,
      Nat.and_two_pow_sub_one_eq_mod, ← limit_eq]
    exact Nat.mod_eq_of_lt fits
  apply UInt16.toNat_inj.mp
  rw [place, ofInt_natCast, UInt16.toNat_shiftLeft, masked, Nat.shiftLeft_eq,
    UInt16.toNat_ofNat', UInt16.toNat_ofNat', shift]

end Field

namespace Layout

def merge (layout : Layout) (base : Word) (fields : Fields) : Word :=
  match layout with
  | .literal => base
  | .address => base ||| Field.addr.place fields.addr
  | .registerByte => base ||| Field.x.place fields.x ||| Field.kk.place fields.kk
  | .registers => base ||| Field.x.place fields.x ||| Field.y.place fields.y
  | .sprite =>
      base ||| Field.x.place fields.x ||| Field.y.place fields.y ||| Field.n.place fields.n
  | .register => base ||| Field.x.place fields.x

/-- Merging is adding, since the fields of a layout and its fixed bits are apart. -/
theorem merge_toFields (layout : Layout) {base : Word} (fixed : base.Within layout.fixedBits)
    (operands : layout.Operands) :
    layout.merge base (layout.toFields operands) =
      base + UInt16.ofNat (layout.pack operands) := by
  have within := Field.place_within
  cases layout with
  | literal => exact (UInt16.add_zero base).symm
  | address =>
      rw [merge, Word.or_eq_add fixed (within .addr _) (by decide), toFields, pack]
      simp only
      rw [Field.place_of_fits operands.isLt]
      simp only [Field.shift, Nat.pow_zero, Nat.mul_one]
  | registerByte =>
      rcases operands with ⟨x, kk⟩
      have xWithin := fixed.or (within .x x.val)
      rw [merge, toFields, pack, Word.or_eq_add xWithin (within .kk _) (by decide),
        Word.or_eq_add fixed (within .x _) (by decide), Field.place_of_fits x.isLt,
        Field.place_of_fits kk.toNat_lt, UInt16.ofNat_add, UInt16.add_assoc]
      simp only [Field.shift, Nat.reducePow, Nat.mul_one]
  | registers =>
      rcases operands with ⟨x, y⟩
      have xWithin := fixed.or (within .x x.val)
      rw [merge, toFields, pack, Word.or_eq_add xWithin (within .y _) (by decide),
        Word.or_eq_add fixed (within .x _) (by decide), Field.place_of_fits x.isLt,
        Field.place_of_fits y.isLt, UInt16.ofNat_add, UInt16.add_assoc]
      simp only [Field.shift, Nat.reducePow]
  | sprite =>
      rcases operands with ⟨x, y, n⟩
      have xWithin := fixed.or (within .x x.val)
      have yWithin := xWithin.or (within .y y.val)
      rw [merge, toFields, pack, Word.or_eq_add yWithin (within .n _) (by decide),
        Word.or_eq_add xWithin (within .y _) (by decide),
        Word.or_eq_add fixed (within .x _) (by decide), Field.place_of_fits x.isLt,
        Field.place_of_fits y.isLt, Field.place_of_fits n.isLt, UInt16.ofNat_add,
        UInt16.ofNat_add, UInt16.add_assoc, UInt16.add_assoc, UInt16.add_assoc]
      simp only [Field.shift, Nat.reducePow, Nat.mul_one]
  | register =>
      rw [merge, Word.or_eq_add fixed (within .x _) (by decide), toFields, pack]
      simp only
      rw [Field.place_of_fits operands.isLt]
      simp only [Field.shift, Nat.reducePow]

end Layout

/-! ## Main statement -/

namespace Instruction

/-- Numbers are accepted exactly if a word of the opcode holds them as its operands. There is no
other such word than the one of the instruction, and writing the numbers under the masks of their
fields gives it too. -/
theorem accepted_iff_unpacked (opcode : Opcode) (fields : Fields) :
    ((∃ instruction, ofFields opcode fields = .ok instruction) ↔
      ∃ word, word &&& opcode.fixedBits = opcode.base ∧ (unpack opcode word).fields = fields) ∧
    ∀ instruction, ofFields opcode fields = .ok instruction →
      (instruction.opcode = opcode ∧ instruction.fields = fields) ∧
      (∀ word, word &&& opcode.fixedBits = opcode.base ∧ (unpack opcode word).fields = fields ↔
        word = instruction.encode) ∧
      opcode.layout.merge opcode.base fields = instruction.encode := by
  have held (instruction : Instruction) (accepted : ofFields opcode fields = .ok instruction) :
      instruction.encode &&& opcode.fixedBits = opcode.base ∧
        (unpack opcode instruction.encode).fields = fields := by
    rcases ofFields_eq_ok_iff.mp accepted with ⟨rfl, rfl⟩
    exact ⟨encode_and_fixedBits instruction,
      congrArg Instruction.fields (unpack_encode instruction)⟩
  refine ⟨?_, ?_⟩
  · constructor
    · rintro ⟨instruction, accepted⟩
      exact ⟨instruction.encode, held instruction accepted⟩
    · rintro ⟨word, _, same⟩
      exact ⟨unpack opcode word, ofFields_eq_ok_iff.mpr ⟨rfl, same⟩⟩
  · intro instruction accepted
    refine ⟨ofFields_eq_ok_iff.mp accepted, fun word => ⟨?_, ?_⟩, ?_⟩
    · rintro ⟨agrees, same⟩
      have unpacked : ofFields opcode fields = .ok (unpack opcode word) :=
        ofFields_eq_ok_iff.mpr ⟨rfl, same⟩
      rw [accepted] at unpacked
      rw [Except.ok.inj unpacked, encode_unpack agrees]
    · rintro rfl
      exact held instruction accepted
    · rcases ofFields_eq_ok_iff.mp accepted with ⟨rfl, rfl⟩
      exact Layout.merge_toFields _ (Opcode.base_and_fixedBits _) instruction.operands

/-- A native call at the word of a literal is such a case, although its word is read as that
literal. -/
theorem accepted_iff_unpacked_of_shadowed :
    ofFields .sys { addr := 0x0E0 } = .ok ⟨.sys, 0x0E0⟩ ∧
      (∀ word, word &&& 0xF000 = 0x0000 ∧ (unpack .sys word).fields = { addr := 0x0E0 } ↔
        word = 0x00E0) ∧
      Layout.address.merge 0x0000 { addr := 0x0E0 } = 0x00E0 := by
  have accepted : ofFields .sys { addr := 0x0E0 } = .ok ⟨.sys, 0x0E0⟩ := rfl
  rcases (accepted_iff_unpacked .sys { addr := 0x0E0 }).2 _ accepted with ⟨_, unique, merged⟩
  exact ⟨accepted, unique, merged⟩

end Instruction

end Chip8
