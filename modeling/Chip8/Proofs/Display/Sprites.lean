import Chip8.Sprite
import Mathlib.Data.List.Nodup

/-! # The set pixels of a sprite

The set pixels of a sprite are pairwise different and lie within its eight columns and its rows, and
there is one for every set bit of its bytes.
-/

namespace Chip8.Sprite

variable {row : UInt8} {rows : List UInt8} {column line first : Nat}

/-! ## Columns of a row -/

theorem mem_columns_iff : column ∈ columns row ↔ column < rowWidth ∧ isSet row column = true := by
  simp [columns]

theorem nodup_columns (row : UInt8) : (columns row).Nodup := List.nodup_range.filter _

theorem cpopNatRec_eq_countP {width : Nat} (bits : BitVec width) (count : Nat) :
    bits.cpopNatRec count 0 = (List.range count).countP bits.getLsbD := by
  induction count with
  | zero => rfl
  | succ count induction =>
      rw [BitVec.cpopNatRec_succ, BitVec.cpopNatRec_eq, induction, List.range_succ,
        List.countP_append, List.countP_singleton]
      cases bits.getLsbD count <;> simp

theorem length_columns (row : UInt8) : (columns row).length = row.toBitVec.cpop.toNat := by
  have mirrored : (List.range rowWidth).map (7 - ·) = (List.range rowWidth).reverse := rfl
  calc (columns row).length
      = (List.range rowWidth).countP (isSet row) := List.countP_eq_length_filter.symm
    _ = ((List.range rowWidth).map (7 - ·)).countP row.toBitVec.getLsbD := List.countP_map.symm
    _ = (List.range rowWidth).countP row.toBitVec.getLsbD := by
        rw [mirrored, List.countP_reverse]
    _ = row.toBitVec.cpop.toNat := by
        rw [BitVec.toNat_cpop, cpopNatRec_eq_countP]
        rfl

theorem columns_eq_nil_iff : columns row = [] ↔ row = 0 := by
  constructor
  · intro empty
    apply UInt8.toNat_inj.mp
    apply Nat.eq_of_testBit_eq
    intro bit
    rw [UInt8.toNat_zero, Nat.zero_testBit]
    by_cases within : bit < 8
    · have absent : 7 - bit ∉ columns row := by simp [empty]
      have small : 7 - bit < 8 := by omega
      have back : 7 - (7 - bit) = bit := by omega
      simpa [mem_columns_iff, isSet, rowWidth, small, back] using absent
    · exact Nat.testBit_lt_two_pow (Nat.lt_of_lt_of_le row.toNat_lt
        (Nat.pow_le_pow_right (by decide) (Nat.le_of_not_lt within)))
  · rintro rfl
    rfl

/-! ## Columns and rows -/

theorem bounds_of_mem_offsetsFrom (member : (column, line) ∈ offsetsFrom first rows) :
    column < rowWidth ∧ first ≤ line ∧ line < first + rows.length := by
  induction rows generalizing first with
  | nil => simp [offsetsFrom] at member
  | cons row rest induction =>
      rw [List.length_cons]
      rcases List.mem_append.mp member with here | later
      · rcases List.mem_map.mp here with ⟨_, taken, equal⟩
        cases equal
        exact ⟨(mem_columns_iff.mp taken).1, by omega, by omega⟩
      · rcases induction later with ⟨within, above, below⟩
        exact ⟨within, by omega, by omega⟩

theorem bounds_of_mem_offsets (member : (column, line) ∈ offsets rows) :
    column < rowWidth ∧ line < rows.length := by
  rcases bounds_of_mem_offsetsFrom member with ⟨within, _, below⟩
  exact ⟨within, by omega⟩

theorem nodup_offsetsFrom (first : Nat) (rows : List UInt8) : (offsetsFrom first rows).Nodup := by
  induction rows generalizing first with
  | nil => exact List.nodup_nil
  | cons row rest induction =>
      refine List.Nodup.append ?_ (induction (first + 1)) ?_
      · exact (nodup_columns row).map fun left right equal => congrArg Prod.fst equal
      · intro offset here later
        rcases List.mem_map.mp here with ⟨_, _, rfl⟩
        have above := (bounds_of_mem_offsetsFrom later).2.1
        omega

theorem nodup_offsets (rows : List UInt8) : (offsets rows).Nodup := nodup_offsetsFrom 0 rows

def bitCount : List UInt8 → Nat
  | [] => 0
  | row :: rest => row.toBitVec.cpop.toNat + bitCount rest

theorem length_offsetsFrom (first : Nat) (rows : List UInt8) :
    (offsetsFrom first rows).length = bitCount rows := by
  induction rows generalizing first with
  | nil => rfl
  | cons row rest induction =>
      simp [offsetsFrom, bitCount, length_columns, induction]

theorem length_offsetsFrom_le (first : Nat) (rows : List UInt8) :
    (offsetsFrom first rows).length ≤ 8 * rows.length := by
  induction rows generalizing first with
  | nil => exact Nat.zero_le _
  | cons row rest induction =>
      have here : (columns row).length ≤ 8 := List.length_filter_le _ _
      have later := induction (first + 1)
      rw [offsetsFrom, List.length_append, List.length_map, List.length_cons]
      omega

theorem length_offsets_le (rows : List UInt8) : (offsets rows).length ≤ 8 * rows.length :=
  length_offsetsFrom_le 0 rows

theorem offsetsFrom_eq_nil_iff : offsetsFrom first rows = [] ↔ ∀ row ∈ rows, row = 0 := by
  induction rows generalizing first with
  | nil => simp [offsetsFrom]
  | cons row rest induction => simp [offsetsFrom, columns_eq_nil_iff, induction]

end Chip8.Sprite
