/-!
# Sizes

The parts of a machine are built with sizes given by a host, which may be any integers.
-/

namespace Chip8

inductive SizeError
  | negative (size : Int)
  /-- The size is past the start of the font and short of its end. -/
  | cutsFont (size : Nat)
  deriving DecidableEq, Repr

def checkedSize (size : Int) : Except SizeError Nat :=
  if size < 0 then .error (.negative size) else .ok size.toNat

end Chip8
