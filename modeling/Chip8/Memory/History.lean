import Chip8.Memory

/-!
# Histories of a memory

Writes and loads, one after the other. A call that is refused leaves memory as it was. What each
call says of the bytes of memory is given here by its range alone.
-/

namespace Chip8.Memory

inductive Call
  | write (address : Int) (data : List UInt8)
  | load (image : Image)
  deriving DecidableEq

def respond (memory : Memory) : Call → Except Fault Memory
  | .write address data => memory.write address data
  | .load image => memory.load image

def after (memory : Memory) (call : Call) : Memory :=
  match memory.respond call with
  | .ok next => next
  | .error _ => memory

def afterAll (memory : Memory) (calls : List Call) : Memory := calls.foldl after memory

namespace Call

def start : Call → Int
  | .write address _ => address
  | .load image => image.base

def data : Call → List UInt8
  | .write _ data => data
  | .load image => image.data

/-- Memory of a size takes what a call brings: a write has to end within memory and may not touch
the reserved area, and an image has to keep to its budget and to the end of memory. -/
def Allowed (size : Nat) : Call → Prop
  | .write address data =>
      0 ≤ address ∧ address + data.length ≤ size ∧ (data = [] ∨ (reservedEnd : Int) ≤ address)
  | .load image => (image.data.length : Int) ≤ min (image.variant.budget : Int) (size - image.base)

instance (size : Nat) : (call : Call) → Decidable (call.Allowed size)
  | .write _ data => inferInstanceAs (Decidable (_ ∧ _ ∧ (data = [] ∨ _)))
  | .load _ => inferInstanceAs (Decidable (_ ≤ _))

def Covers (call : Call) (address : Nat) : Prop :=
  call.start ≤ address ∧ (address : Int) < call.start + call.data.length

instance (call : Call) (address : Nat) : Decidable (call.Covers address) :=
  inferInstanceAs (Decidable (_ ∧ _))

def byte? (call : Call) (address : Nat) : Option UInt8 :=
  if call.Covers address then call.data[(address - call.start).toNat]? else none

end Call

def taken (size : Nat) (calls : List Call) : List Call := calls.filter fun call => call.Allowed size

/-- The byte that the last of some calls to cover an address brings there. -/
def lastByte? (calls : List Call) (address : Nat) : Option UInt8 :=
  calls.reverse.findSome? (·.byte? address)

example : lastByte? (taken 0x204 [.write 0x200 [1, 2, 3], .write 0x201 [4], .write 0x1FF [5, 6, 7]])
    0x201 = some 4 := rfl

end Chip8.Memory
