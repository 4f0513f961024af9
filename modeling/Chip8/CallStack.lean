import Chip8.Fault
import Chip8.Signed32
import Chip8.Size
import Chip8.Word

/-!
# The call stack

Return addresses of twelve bits in a fixed number of cells. Cells at and above the pointer are
unused; a popped cell is cleared. `toList` is the view of the stack as the list of its addresses,
the oldest first.
-/

namespace Chip8

structure CallStack where
  cells : Array Word
  pointer : Nat
  deriving DecidableEq

namespace CallStack

def standardDepth : Nat := 16

def depth (stack : CallStack) : Nat := stack.cells.size

def toList (stack : CallStack) : List Word := stack.cells.toList.take stack.pointer

def empty (depth : Nat) : CallStack := { cells := Array.replicate depth 0, pointer := 0 }

def create (depth : Int) : Except SizeError CallStack := (checkedSize depth).map empty

def mask (address : Int) : Word := UInt16.ofInt address &&& 0x0FFF

def push (stack : CallStack) (address : Int) : Except Fault CallStack :=
  if stack.pointer ≥ stack.depth then
    .error (.stackOverflow stack.depth)
  else
    .ok
      { cells := stack.cells.setIfInBounds stack.pointer (mask address)
        pointer := stack.pointer + 1 }

def pop (stack : CallStack) : Except Fault (Word × CallStack) :=
  match stack.pointer with
  | 0 => .error .stackUnderflow
  | pointer + 1 =>
      .ok (stack.cells[pointer]?.getD 0,
        { cells := stack.cells.setIfInBounds pointer 0, pointer })

theorem toList_push {stack pushed : CallStack} {address : Int}
    (success : stack.push address = .ok pushed) :
    pushed.toList = stack.toList ++ [mask address] := by
  unfold push at success
  split at success
  next => cases success
  next room =>
    cases success
    have within : stack.pointer < stack.cells.toList.length := by
      rw [Array.length_toList]
      exact Nat.lt_of_not_le room
    simp only [toList, Array.toList_setIfInBounds]
    rw [List.take_add_one, List.take_set_of_le (Nat.le_refl _), List.getElem?_set_self within]
    rfl

theorem toList_pop {stack popped : CallStack} {address : Word}
    (bounded : stack.pointer ≤ stack.depth) (success : stack.pop = .ok (address, popped)) :
    stack.toList = popped.toList ++ [address] := by
  unfold pop at success
  split at success
  next => cases success
  next pointer equal =>
    cases success
    have within : pointer < stack.cells.size := by
      rw [equal] at bounded
      exact bounded
    simp only [toList, equal, Array.toList_setIfInBounds]
    rw [List.take_add_one, List.take_set_of_le (Nat.le_refl _), Array.getElem?_toList,
      Array.getElem?_eq_getElem within]
    rfl

/-! ## Addresses from a host -/

inductive PushError
  | fault (fault : Fault)
  | tooWide (address : Int)
  deriving DecidableEq, Repr

/-- Push an address from a host. A full stack is reported before an address that is too wide. -/
def pushChecked (stack : CallStack) (address : Int) : Except PushError CallStack :=
  match stack.push address with
  | .error fault => .error (.fault fault)
  | .ok pushed => if Signed32.Fits address then .ok pushed else .error (.tooWide address)

example : ((empty 2).push 0x1234).map toList = .ok [0x234] := rfl

end CallStack

end Chip8
