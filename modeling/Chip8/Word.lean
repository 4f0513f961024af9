/-!
# Words and their fields

An instruction is a word of sixteen bits. Its fields are the second and third hexadecimal digit
(`x` and `y`), the last digit (`n`), the last byte (`kk`) and the last twelve bits (`addr`).
-/

namespace Chip8

abbrev Word := UInt16

abbrev Nibble := Fin 16

-- Named, so that the numerals of all modules share one proof.
instance neZero_sixteen : @NeZero Nat Zero.ofOfNat0 16 := ⟨by decide⟩

abbrev Register := Fin 16

theorem Register.lt (register : Register) : register.val < 16 := register.isLt

abbrev Address := Fin 4096

instance neZero_4096 : @NeZero Nat Zero.ofOfNat0 4096 := ⟨by decide⟩

def Address.greatest : Nat := 0xFFF

theorem Address.le_greatest (address : Address) : address.val ≤ Address.greatest :=
  Nat.le_of_lt_succ address.isLt

def Address.toWord (address : Address) : Word := UInt16.ofNat address.val

namespace Word

/-! ## Bytes -/

def ofBytes (high low : UInt8) : Word := UInt16.ofNat (high.toNat * 256 + low.toNat)

def high (word : Word) : UInt8 := UInt8.ofNat (word.toNat / 256)

def low (word : Word) : UInt8 := UInt8.ofNat (word.toNat % 256)

def bytes (word : Word) : List UInt8 := [word.high, word.low]

theorem toNat_ofBytes (high low : UInt8) :
    (ofBytes high low).toNat = high.toNat * 256 + low.toNat := by
  have highBound := high.toNat_lt
  have lowBound := low.toNat_lt
  simp only [ofBytes, UInt16.toNat_ofNat']
  omega

@[simp] theorem high_ofBytes (high low : UInt8) : (ofBytes high low).high = high := by
  have lowBound := low.toNat_lt
  apply UInt8.toNat_inj.mp
  have highBound := high.toNat_lt
  simp only [Word.high, toNat_ofBytes, UInt8.toNat_ofNat']
  omega

@[simp] theorem low_ofBytes (high low : UInt8) : (ofBytes high low).low = low := by
  have lowBound := low.toNat_lt
  apply UInt8.toNat_inj.mp
  simp only [Word.low, toNat_ofBytes, UInt8.toNat_ofNat']
  omega

@[simp] theorem ofBytes_high_low (word : Word) : ofBytes word.high word.low = word := by
  have wordBound := word.toNat_lt
  apply UInt16.toNat_inj.mp
  simp only [toNat_ofBytes, Word.high, Word.low, UInt8.toNat_ofNat']
  omega

/-! ## Fields -/

def family (word : Word) : Nat := word.toNat / 4096

def x (word : Word) : Register := ⟨word.toNat / 256 % 16, by omega⟩

def y (word : Word) : Register := ⟨word.toNat / 16 % 16, by omega⟩

def n (word : Word) : Nibble := ⟨word.toNat % 16, by omega⟩

def kk (word : Word) : UInt8 := word.low

def addr (word : Word) : Address := ⟨word.toNat % 4096, by omega⟩

example : (Word.x 0xD12F, Word.y 0xD12F, Word.n 0xD12F) = (1, 2, 15) := rfl

example : (Word.kk 0xD12F, Word.addr 0xD12F) = (0x2F, 0x12F) := rfl

end Word

end Chip8
