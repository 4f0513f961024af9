/-!
# Load variants

A variant is a convention for loading images: the address of the first byte and the largest size.
-/

namespace Chip8

inductive Variant
  | standard
  | eti660
  deriving DecidableEq, Repr

namespace Variant

def all : List Variant := [.standard, .eti660]

def name : Variant → String
  | .standard => "STANDARD"
  | .eti660 => "ETI_660"

def ofName? (name : String) : Option Variant :=
  all.find? fun variant => variant.name = name

def base : Variant → Nat
  | .standard => 0x200
  | .eti660 => 0x600

def budget : Variant → Nat
  | .standard => 0xE00
  | .eti660 => 0xA00

theorem base_add_budget (variant : Variant) : variant.base + variant.budget = 4096 := by
  cases variant <;> rfl

/-- The variant of an image by its size: only an image that fills the smaller budget exactly is of
the smaller variant. -/
def detect (size : Int) : Variant :=
  if size = Variant.eti660.budget then .eti660 else .standard

end Variant

end Chip8
