import Chip8.Directory
import Chip8.Instruction
import Chip8.Variant

/-!
# Program images

An image is the bytes of a program and the variant it is loaded by. The constructors here refuse an
empty image and one that is too large for its variant.
-/

namespace Chip8

structure Image where
  data : List UInt8
  variant : Variant
  deriving DecidableEq, Repr

namespace Image

def size (image : Image) : Nat := image.data.length

def base (image : Image) : Nat := image.variant.base

def padded (image : Image) : List UInt8 :=
  image.data ++ List.replicate (image.variant.budget - image.size) 0

theorem length_padded (image : Image) (fits : image.size ≤ image.variant.budget) :
    image.padded.length = image.variant.budget := by
  simp only [padded, List.length_append, List.length_replicate]
  exact Nat.add_sub_of_le fits

/-- Check bytes and make an image of them. Without a variant, the size decides on one. -/
def ofBytes (data : List UInt8) (variant : Option Variant) : Except Fault Image :=
  if data = [] then
    .error (.invalidImage .empty)
  else
    let variant := variant.getD (.detect data.length)
    if data.length > variant.budget then
      .error (.imageTooLarge data.length variant.budget)
    else
      .ok { data, variant }

def assemble (program : List Instruction) : List UInt8 :=
  program.flatMap fun instruction => instruction.encode.bytes

def ofInstructions (program : List Instruction) (variant : Variant) : Except Fault Image :=
  ofBytes (assemble program) (some variant)

example : ofInstructions [⟨.clearScreen, ()⟩, ⟨.jump, 0x200⟩] .standard =
    .ok { data := [0x00, 0xE0, 0x12, 0x00], variant := .standard } := rfl

/-! ## Files -/

inductive FileError
  | invalidPath
  | fault (fault : Fault)
  deriving DecidableEq, Repr

def ofFile (directory : Directory) (path : String) (variant : Option Variant) :
    Except FileError Image :=
  match directory.read path with
  | .error .invalidCharacter => .error .invalidPath
  | .error (.problem problem) => .error (.fault (.invalidImage (.unreadable path problem)))
  | .ok data => (ofBytes data variant).mapError .fault

end Image

end Chip8
