import Chip8.Instruction

/-!
# Listings

A listing takes an image two bytes at a time. Images mix code and data, so a word that is no
instruction is listed as data, and an odd last byte is completed by a zero.
-/

namespace Chip8

structure ListingRow where
  address : Int
  word : Word
  instruction : Option Instruction
  deriving DecidableEq

namespace ListingRow

def ofWord (address : Int) (word : Word) : ListingRow :=
  { address, word, instruction := Instruction.ofWord? word }

def statement (row : ListingRow) : String :=
  match row.instruction with
  | some instruction => instruction.text
  | none => "DW 0x" ++ Text.Hex.numeral 4 row.word.toNat

def text (row : ListingRow) : String :=
  "0x" ++ Text.Hex.numeral 3 row.address ++ " | " ++ Text.Hex.numeral 4 row.word.toNat ++ " | " ++
    row.statement

end ListingRow

namespace Listing

/-- The words of an image, an odd last byte completed by a zero. -/
def words : List UInt8 → List Word
  | [] => []
  | [last] => [.ofBytes last 0]
  | high :: low :: rest => .ofBytes high low :: words rest

def rowsOfWords (base : Int) : List Word → List ListingRow
  | [] => []
  | word :: rest => .ofWord base word :: rowsOfWords (base + 2) rest

def rows (data : List UInt8) (base : Int) : List ListingRow :=
  rowsOfWords base (words data)

def header : String :=
  " Addr | Word | Instruction\n" ++ String.ofList (List.replicate 32 '-')

def text (data : List UInt8) (base : Int) : String :=
  "\n".intercalate (header :: (rows data base).map ListingRow.text)

theorem words_flatMap_bytes (program : List Word) :
    words (program.flatMap Word.bytes) = program := by
  induction program with
  | nil => rfl
  | cons word rest induction =>
      simp [Word.bytes, words, induction]

theorem length_words : (data : List UInt8) → (words data).length = (data.length + 1) / 2
  | [] => rfl
  | [_] => by simp [words]
  | _ :: _ :: rest => by
      simp only [words, List.length_cons, length_words rest]
      omega

example : (words [0x12, 0x34, 0x60]) = [0x1234, 0x6000] := rfl

end Listing

end Chip8
