/-!
# Signed numbers of 32 bits

Coordinates and return addresses are handed over as signed numbers of 32 bits; sums of coordinates
and counts of hits wrap in that range.
-/

namespace Chip8.Signed32

def Fits (value : Int) : Prop := -2147483648 ≤ value ∧ value < 2147483648

instance (value : Int) : Decidable (Fits value) :=
  inferInstanceAs (Decidable (_ ∧ _))

def wrap (value : Int) : Int := (value + 2147483648) % 4294967296 - 2147483648

theorem wrap_eq_self {value : Int} (fits : Fits value) : wrap value = value := by
  unfold Fits at fits
  unfold wrap
  omega

theorem wrap_add_wrap (value extra : Int) : wrap (wrap value + extra) = wrap (value + extra) := by
  unfold wrap
  omega

theorem wrap_emod_two (value : Int) : wrap value % 2 = value % 2 := by
  unfold wrap
  omega

end Chip8.Signed32
