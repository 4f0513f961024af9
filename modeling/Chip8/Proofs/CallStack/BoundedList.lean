import Chip8.CallStack.History
import Chip8.Proofs.CallStack
import Mathlib.Data.List.Forall2

/-! # The call stack as a bounded list

A clean stack answers every operation as the list of its addresses does, and is left with the
addresses that the list is left with. Operations keep a stack clean, so this goes on through every
history, whichever operations fail.
-/

namespace Chip8.CallStack

variable {stack next : CallStack} {depth : Nat}

/-- A stack of some depth lists addresses: the pointer counts them, the cells below it are theirs in
order, and all other cells are zero. -/
structure Represents (stack : CallStack) (depth : Nat) (addresses : List Int) : Prop where
  size : stack.depth = depth
  bounded : addresses.length ≤ depth
  pointer : stack.pointer = addresses.length
  cells : ∀ index, index < depth →
    stack.cells[index]?.map (fun cell => (cell.toNat : Int)) = some (addresses[index]?.getD 0)

/-! ## The addresses as numbers -/

def addresses (stack : CallStack) : List Int := stack.toList.map fun cell => (cell.toNat : Int)

theorem addresses_push {address : Int} (success : stack.push address = .ok next) :
    next.addresses = stack.addresses ++ [address % 4096] := by
  rw [addresses, toList_push success, List.map_append, List.map_singleton, toNat_mask]
  rfl

theorem addresses_pop {popped : Word} (bounded : stack.Bounded)
    (success : stack.pop = .ok (popped, next)) :
    stack.addresses = next.addresses ++ [(popped.toNat : Int)] := by
  rw [addresses, toList_pop bounded success, List.map_append]
  rfl

theorem Clean.length_addresses (clean : stack.Clean) : stack.addresses.length = stack.pointer := by
  rw [addresses, List.length_map, clean.length_toList]

theorem Clean.represents (clean : stack.Clean) :
    stack.Represents stack.depth stack.addresses where
  size := rfl
  bounded := by
    rw [clean.length_addresses]
    exact clean.bounded
  pointer := clean.length_addresses.symm
  cells index within := by
    by_cases used : index < stack.pointer
    · have held : index < stack.addresses.length := by rwa [clean.length_addresses]
      rw [← getElem?_toList used, ← List.getElem?_map, ← addresses,
        List.getElem?_eq_getElem held, Option.getD_some]
    · have free : stack.addresses.length ≤ index := by
        rw [clean.length_addresses]
        exact Nat.le_of_not_lt used
      rw [clean.unused index (Nat.le_of_not_lt used) within, List.getElem?_eq_none free]
      rfl

/-! ## One operation -/

theorem perform_push {address : Int} (fits : Signed32.Fits address) :
    stack.perform (.push address) =
      match stack.push address with
      | .ok pushed => (.ok none, pushed)
      | .error fault => (.error (.fault fault), stack) := by
  rw [perform, pushChecked]
  cases stack.push address with
  | error fault => rfl
  | ok pushed => simp only [if_pos fits]

theorem performOnList_addresses (clean : stack.Clean) {operation : Operation}
    (fits : operation.Fits) :
    performOnList stack.depth stack.addresses operation =
      ((stack.perform operation).1, (stack.perform operation).2.addresses) := by
  have length := clean.length_addresses
  cases operation with
  | push address =>
      rw [perform_push fits, performOnList, length]
      cases pushed : stack.push address with
      | error fault =>
          rcases (push_eq_error_iff clean.bounded address fault).mp pushed with ⟨full, rfl⟩
          rw [if_pos full]
      | ok next =>
          have room := (push_cases pushed).1
          rw [if_neg (Nat.ne_of_lt room), addresses_push pushed]
  | pop =>
      rw [perform, performOnList]
      cases popped : stack.pop with
      | error fault =>
          rcases (pop_eq_error_iff stack fault).mp popped with ⟨empty, rfl⟩
          have none : stack.addresses = [] := List.eq_nil_of_length_eq_zero (length.trans empty)
          rw [none]
          rfl
      | ok outcome =>
          have split := addresses_pop clean.bounded popped
          simp only [split, List.getLast?_concat, List.dropLast_concat]

theorem perform_cases (stack : CallStack) (operation : Operation) :
    (stack.perform operation).2 = stack ∨
      (∃ address, stack.push address = .ok (stack.perform operation).2) ∨
        ∃ popped, stack.pop = .ok (popped, (stack.perform operation).2) := by
  cases operation with
  | push address =>
      by_cases fits : Signed32.Fits address
      · rw [perform_push fits]
        cases pushed : stack.push address with
        | error fault => exact .inl rfl
        | ok next => exact .inr (.inl ⟨address, pushed⟩)
      · left
        rw [perform, pushChecked]
        cases stack.push address with
        | error fault => rfl
        | ok next => simp only [if_neg fits]
  | pop =>
      rw [perform]
      cases popped : stack.pop with
      | error fault => exact .inl rfl
      | ok outcome => exact .inr (.inr ⟨outcome.1, rfl⟩)

theorem clean_perform (clean : stack.Clean) (operation : Operation) :
    (stack.perform operation).2.Clean := by
  rcases stack.perform_cases operation with same | ⟨address, pushed⟩ | ⟨address, popped⟩
  · rw [same]
    exact clean
  · exact clean.push pushed
  · exact clean.pop popped

theorem depth_perform (stack : CallStack) (operation : Operation) :
    (stack.perform operation).2.depth = stack.depth := by
  rcases stack.perform_cases operation with same | ⟨address, pushed⟩ | ⟨address, popped⟩
  · rw [same]
  · exact depth_push pushed
  · exact depth_pop popped

/-! ## Histories -/

def Agrees (depth : Nat) (left : Answer × CallStack) (right : Answer × List Int) : Prop :=
  left.1 = right.1 ∧ left.2.Represents depth right.2

theorem outcomes_agree (clean : stack.Clean) {operations : List Operation}
    (fits : ∀ operation ∈ operations, operation.Fits) :
    List.Forall₂ (Agrees stack.depth) (outcomes perform stack operations)
      (outcomes (performOnList stack.depth) stack.addresses operations) := by
  induction operations generalizing stack with
  | nil => exact .nil
  | cons operation rest induction =>
      rw [List.forall_mem_cons] at fits
      have after := clean_perform clean operation
      have sameDepth := depth_perform stack operation
      have later := induction after fits.2
      have represents := after.represents
      rw [sameDepth] at later represents
      simp only [outcomes, performOnList_addresses clean fits.1]
      exact .cons ⟨rfl, represents⟩ later

/-- An empty stack answers every history of pushes and pops as a list that may not grow past its
depth does, and after each operation it lists the addresses of that list. -/
theorem refines_bounded_list (depth : Nat) {operations : List Operation}
    (fits : ∀ operation ∈ operations, operation.Fits) :
    List.Forall₂ (Agrees depth) (outcomes perform (empty depth) operations)
      (outcomes (performOnList depth) [] operations) := by
  have size : (empty depth).depth = depth := Array.size_replicate
  have agree := outcomes_agree (clean_empty depth) fits
  rw [size] at agree
  exact agree

theorem refines_bounded_list_overflowing :
    List.Forall₂ (Agrees 2)
      (outcomes perform (empty 2)
        [.push (-1), .push 0x7FFFFFFF, .push 0, .pop, .push (-0x80000000), .pop, .pop, .pop])
      [(.ok none, [4095]), (.ok none, [4095, 4095]),
        (.error (.fault (.stackOverflow 2)), [4095, 4095]), (.ok (some 4095), [4095]),
        (.ok none, [4095, 0]), (.ok (some 0), [4095]), (.ok (some 4095), []),
        (.error (.fault .stackUnderflow), [])] :=
  refines_bounded_list 2 (by decide)

end Chip8.CallStack
