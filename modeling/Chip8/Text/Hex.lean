/-!
# Hexadecimal numerals

Upper-case numerals of integers, padded with zeros to a least width. A minus sign counts towards
the width, so `-1` at width three is `-01`; longer numerals are never cut.
-/

namespace Chip8.Text.Hex

def digit (value : Nat) : Char :=
  if value < 10 then Char.ofNat (48 + value) else Char.ofNat (55 + value)

example : [0, 9, 10, 15].map digit = ['0', '9', 'A', 'F'] := by decide

def digits (value : Nat) : List Char :=
  if value < 16 then [digit value] else digits (value / 16) ++ [digit (value % 16)]

def sign (value : Int) : List Char :=
  if value < 0 then ['-'] else []

def padded (width : Nat) (value : Int) : List Char :=
  let body := digits value.natAbs
  sign value ++ List.replicate (width - (sign value).length - body.length) '0' ++ body

def numeral (width : Nat) (value : Int) : String :=
  String.ofList (padded width value)

theorem le_length_padded (width : Nat) (value : Int) : width ≤ (padded width value).length := by
  simp only [padded, List.length_append, List.length_replicate]
  omega

example : numeral 3 0x200 = "200" := by simp [numeral, padded, digits, digit, sign]

example : numeral 3 (-1) = "-01" := by simp [numeral, padded, digits, digit, sign]

example : numeral 3 0x1234 = "1234" := by simp [numeral, padded, digits, digit, sign]

end Chip8.Text.Hex
