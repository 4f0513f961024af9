import Chip8.CallStack

/-!
# Histories of a call stack

What a host does with a call stack, operation by operation, and what comes of it. An operation that
fails leaves the stack as it was. A list of addresses that may not grow past a depth answers the
same operations.
-/

namespace Chip8.CallStack

inductive Operation
  | push (address : Int)
  | pop
  deriving DecidableEq

def Operation.Fits : Operation → Prop
  | .push address => Signed32.Fits address
  | .pop => True

instance : (operation : Operation) → Decidable operation.Fits
  | .push address => inferInstanceAs (Decidable (Signed32.Fits address))
  | .pop => inferInstanceAs (Decidable True)

abbrev Answer := Except PushError (Option Int)

def perform (stack : CallStack) : Operation → Answer × CallStack
  | .push address =>
      match stack.pushChecked address with
      | .ok pushed => (.ok none, pushed)
      | .error error => (.error error, stack)
  | .pop =>
      match stack.pop with
      | .ok (address, popped) => (.ok (some address.toNat), popped)
      | .error fault => (.error (.fault fault), stack)

/-- The answer of a list of at most `depth` addresses to an operation, and the list after it. -/
def performOnList (depth : Nat) (addresses : List Int) : Operation → Answer × List Int
  | .push address =>
      if addresses.length = depth then
        (.error (.fault (.stackOverflow depth)), addresses)
      else
        (.ok none, addresses ++ [address % 4096])
  | .pop =>
      match addresses.getLast? with
      | none => (.error (.fault .stackUnderflow), addresses)
      | some last => (.ok (some last), addresses.dropLast)

def outcomes {State : Type} (perform : State → Operation → Answer × State) (state : State) :
    List Operation → List (Answer × State)
  | [] => []
  | operation :: rest =>
      let outcome := perform state operation
      outcome :: outcomes perform outcome.2 rest

example : outcomes (performOnList 1) [] [.push (-1), .push 7, .pop, .pop] =
    [(.ok none, [4095]), (.error (.fault (.stackOverflow 1)), [4095]), (.ok (some 4095), []),
      (.error (.fault .stackUnderflow), [])] := rfl

end Chip8.CallStack
