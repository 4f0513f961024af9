import Chip8.Text.Hex
import Mathlib.Algebra.Group.Nat.Defs
import Mathlib.Data.Nat.Init

/-! # Reading numerals

A numeral of any width is read back as its integer: zeros in front do not count, and a minus sign
is no digit.
-/

namespace Chip8.Text.Hex

def alphabet : List Char :=
  ['-', '0', '1', '2', '3', '4', '5', '6', '7', '8', '9', 'A', 'B', 'C', 'D', 'E', 'F']

def digitValue (character : Char) : Nat :=
  if character.toNat < 65 then character.toNat - 48 else character.toNat - 55

/-- The number that digits stand for, behind those of `value`. -/
def read (value : Nat) : List Char → Nat
  | [] => value
  | character :: rest => read (value * 16 + digitValue character) rest

theorem read_append (value : Nat) (left right : List Char) :
    read value (left ++ right) = read (read value left) right := by
  induction left generalizing value with
  | nil => rfl
  | cons character rest induction => exact induction _

theorem read_zeros (count : Nat) : read 0 (List.replicate count '0') = 0 := by
  induction count with
  | zero => rfl
  | succ count induction => exact induction

theorem digitValue_digit {value : Nat} (small : value < 16) : digitValue (digit value) = value := by
  have all : ∀ value : Fin 16, digitValue (digit value) = value := by decide
  exact all ⟨value, small⟩

theorem digit_mem_alphabet {value : Nat} (small : value < 16) : digit value ∈ alphabet.tail := by
  have all : ∀ value : Fin 16, digit value ∈ alphabet.tail := by decide
  exact all ⟨value, small⟩

theorem read_digits (value : Nat) : read 0 (digits value) = value := by
  induction value using digits.induct with
  | case1 value small =>
      rw [digits, if_pos small, read, read, digitValue_digit small]
      omega
  | case2 value large induction =>
      rw [digits, if_neg large, read_append, induction, read, read,
        digitValue_digit (Nat.mod_lt value (by decide))]
      omega

theorem mem_digits {value : Nat} {character : Char} (member : character ∈ digits value) :
    character ∈ alphabet.tail := by
  induction value using digits.induct with
  | case1 value small =>
      rw [digits, if_pos small] at member
      rw [List.mem_singleton.mp member]
      exact digit_mem_alphabet small
  | case2 value large induction =>
      rw [digits, if_neg large, List.mem_append] at member
      rcases member with front | last
      · exact induction front
      · rw [List.mem_singleton.mp last]
        exact digit_mem_alphabet (Nat.mod_lt value (by decide))

theorem length_digits_le {value width : Nat} (positive : 0 < width) (fits : value < 16 ^ width) :
    (digits value).length ≤ width := by
  induction width generalizing value with
  | zero => cases positive
  | succ width induction =>
      rw [digits]
      split
      next => exact positive
      next large =>
        have wide : 0 < width := by
          rcases Nat.eq_zero_or_pos width with zero | wide
          · rw [zero] at fits
            exact absurd fits large
          · exact wide
        have quotient : value / 16 < 16 ^ width :=
          Nat.div_lt_of_lt_mul (by rwa [Nat.mul_comm, ← Nat.pow_succ])
        have shorter := induction wide quotient
        rw [List.length_append, List.length_singleton]
        omega

/-! ## Padding -/

theorem padded_eq (width : Nat) (value : Int) :
    ∃ zeros, padded width value =
      sign value ++ (List.replicate zeros '0' ++ digits value.natAbs) := by
  exact ⟨_, List.append_assoc _ _ _⟩

theorem mem_padded {width : Nat} {value : Int} {character : Char}
    (member : character ∈ padded width value) : character ∈ alphabet := by
  rcases padded_eq width value with ⟨zeros, equal⟩
  rw [equal, List.mem_append, List.mem_append] at member
  rcases member with minus | zero | digit
  · rw [sign] at minus
    split at minus
    · rw [List.mem_singleton.mp minus]
      decide
    · cases minus
  · rw [List.eq_of_mem_replicate zero]
    decide
  · exact List.mem_of_mem_tail (mem_digits digit)

theorem minus_mem_padded_iff (width : Nat) (value : Int) :
    '-' ∈ padded width value ↔ value < 0 := by
  rcases padded_eq width value with ⟨zeros, equal⟩
  rw [equal, sign]
  constructor
  · intro member
    refine Decidable.byContradiction fun nonnegative => ?_
    rw [if_neg nonnegative, List.nil_append, List.mem_append] at member
    rcases member with zero | digit
    · exact absurd (List.eq_of_mem_replicate zero) (by decide)
    · exact absurd (mem_digits digit) (by decide)
  · intro negative
    rw [if_pos negative]
    exact List.mem_append_left _ (List.mem_singleton_self _)

theorem padded_injective (width : Nat) : Function.Injective (padded width) := by
  intro left right same
  have signs : left < 0 ↔ right < 0 := by
    rw [← minus_mem_padded_iff width, same, minus_mem_padded_iff]
  have sameSign : sign left = sign right := by
    simp only [sign, signs]
  rcases padded_eq width left with ⟨leftZeros, leftEqual⟩
  rcases padded_eq width right with ⟨rightZeros, rightEqual⟩
  rw [leftEqual, rightEqual, sameSign, List.append_cancel_left_eq] at same
  have values := congrArg (read 0) same
  rw [read_append, read_append, read_zeros, read_zeros, read_digits, read_digits] at values
  omega

theorem numeral_injective (width : Nat) : Function.Injective (numeral width) := by
  intro left right same
  apply padded_injective width
  have lists := congrArg String.toList same
  rwa [numeral, numeral, String.toList_ofList, String.toList_ofList] at lists

theorem length_padded {width value : Nat} (positive : 0 < width) (fits : value < 16 ^ width) :
    (padded width value).length = width := by
  have least := le_length_padded width value
  have short := length_digits_le positive fits
  have unsigned : sign (value : Int) = [] := if_neg (by omega)
  simp only [padded, unsigned, Int.natAbs_natCast, List.length_append, List.length_replicate,
    List.length_nil] at least ⊢
  omega

end Chip8.Text.Hex
