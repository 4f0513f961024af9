import Chip8.CallStack

/-! # Call stacks as lists

A clean stack has zeros in all of its unused cells. Pushing and popping keep a stack clean, and a
clean stack of a given depth is determined by the list of its addresses: what holds of that list
holds of the cells.
-/

namespace Chip8.CallStack

variable {stack next left right : CallStack} {address : Int} {popped : Word}
  {frame : List Word} {size : Nat}

def Bounded (stack : CallStack) : Prop := stack.pointer ≤ stack.depth

/-- The pointer keeps to the depth, and the cells that are not in use are zero. -/
structure Clean (stack : CallStack) : Prop where
  bounded : stack.Bounded
  unused : ∀ index, stack.pointer ≤ index → index < stack.depth → stack.cells[index]? = some 0

theorem clean_empty (depth : Nat) : (empty depth).Clean := by
  refine ⟨Nat.zero_le _, ?_⟩
  intro index _ within
  rw [CallStack.depth, empty, Array.size_replicate] at within
  rw [empty, Array.getElem?_replicate, if_pos within]

theorem create_cases {depth : Int} (created : create depth = .ok stack) :
    (stack.depth : Int) = depth ∧ stack = empty stack.depth := by
  rw [create, checkedSize] at created
  split at created
  next => cases created
  next nonnegative =>
    cases created
    have size : (empty depth.toNat).depth = depth.toNat := Array.size_replicate
    rw [size]
    exact ⟨Int.toNat_of_nonneg (Int.not_lt.mp nonnegative), rfl⟩

theorem clean_create {depth : Int} (created : create depth = .ok stack) : stack.Clean := by
  rw [(create_cases created).2]
  exact clean_empty _

theorem Clean.length_toList (clean : stack.Clean) : stack.toList.length = stack.pointer := by
  rw [toList, List.length_take, Array.length_toList]
  exact Nat.min_eq_left clean.bounded

/-! ## Pushing and popping -/

theorem push_cases (success : stack.push address = .ok next) :
    stack.pointer < stack.depth ∧
      next = { cells := stack.cells.setIfInBounds stack.pointer (mask address)
               pointer := stack.pointer + 1 } := by
  rw [push] at success
  split at success
  next => cases success
  next room => exact ⟨Nat.lt_of_not_le room, (Except.ok.inj success).symm⟩

theorem pop_cases (success : stack.pop = .ok (popped, next)) :
    stack.pointer = next.pointer + 1 ∧
      next.cells = stack.cells.setIfInBounds next.pointer 0 := by
  rw [pop] at success
  split at success
  next => cases success
  next pointer used =>
    cases success
    exact ⟨used, rfl⟩

theorem depth_push (success : stack.push address = .ok next) : next.depth = stack.depth := by
  rcases push_cases success with ⟨_, rfl⟩
  exact Array.size_setIfInBounds

theorem depth_pop (success : stack.pop = .ok (popped, next)) : next.depth = stack.depth := by
  rw [depth, (pop_cases success).2]
  exact Array.size_setIfInBounds

theorem Clean.push (clean : stack.Clean) (success : stack.push address = .ok next) :
    next.Clean := by
  have sameDepth := depth_push success
  rcases push_cases success with ⟨room, rfl⟩
  refine ⟨?_, ?_⟩
  · rw [Bounded, sameDepth]
    exact room
  · intro index unused within
    rw [sameDepth] at within
    rw [Array.getElem?_setIfInBounds_ne (Nat.ne_of_lt unused)]
    exact clean.unused index (Nat.le_of_succ_le unused) within

theorem Clean.pop (clean : stack.Clean) (success : stack.pop = .ok (popped, next)) :
    next.Clean := by
  have sameDepth := depth_pop success
  have bound : stack.pointer ≤ stack.depth := clean.bounded
  rcases pop_cases success with ⟨used, cells⟩
  refine ⟨by rw [Bounded]; omega, ?_⟩
  intro index unused within
  rw [cells]
  rcases Nat.eq_or_lt_of_le unused with cleared | above
  · rw [cleared, Array.getElem?_setIfInBounds_self_of_lt (by rw [depth] at bound; omega)]
  · rw [Array.getElem?_setIfInBounds_ne (Nat.ne_of_lt above)]
    exact clean.unused index (by omega) (by omega)

theorem push_eq_error_iff (bounded : stack.Bounded) (address : Int) (fault : Fault) :
    stack.push address = .error fault ↔
      stack.pointer = stack.depth ∧ fault = .stackOverflow stack.depth := by
  rw [CallStack.push]
  split
  next full =>
    constructor
    · intro failure
      exact ⟨Nat.le_antisymm bounded full, (Except.error.inj failure).symm⟩
    · intro causes
      rcases causes with ⟨_, rfl⟩
      rfl
  next room =>
    constructor
    · intro failure
      cases failure
    · intro causes
      rcases causes with ⟨full, _⟩
      omega

theorem pop_eq_error_iff (stack : CallStack) (fault : Fault) :
    stack.pop = .error fault ↔ stack.pointer = 0 ∧ fault = .stackUnderflow := by
  rw [CallStack.pop]
  split
  next empty =>
    constructor
    · intro failure
      exact ⟨empty, (Except.error.inj failure).symm⟩
    · intro causes
      rcases causes with ⟨_, rfl⟩
      rfl
  next pointer used =>
    constructor
    · intro failure
      cases failure
    · intro causes
      rcases causes with ⟨empty, _⟩
      omega

/-! ## The width of the addresses -/

def Narrow (stack : CallStack) : Prop :=
  ∀ (index : Nat) (cell : Word), stack.cells[index]? = some cell → cell.toNat ≤ Address.greatest

theorem toNat_mask (address : Int) : ((mask address).toNat : Int) = address % 4096 := by
  have wrapped : (UInt16.ofInt address).toNat = (address % 65536).toNat := by
    rw [UInt16.ofInt, UInt16.toNat_ofNat']
    omega
  have kept : (0x0FFF : Word).toNat = 2 ^ 12 - 1 := rfl
  rw [mask, UInt16.toNat_and, wrapped, kept, Nat.and_two_pow_sub_one_eq_mod]
  omega

theorem toNat_mask_le (address : Int) : (mask address).toNat ≤ Address.greatest := by
  have exact := toNat_mask address
  rw [Address.greatest]
  omega

theorem narrow_empty (depth : Nat) : (empty depth).Narrow := by
  intro index cell found
  rw [empty, Array.getElem?_replicate] at found
  split at found
  · cases found
    exact Nat.zero_le _
  · cases found

theorem narrow_create {depth : Int} (created : create depth = .ok stack) : stack.Narrow := by
  rw [(create_cases created).2]
  exact narrow_empty _

private theorem Narrow.write {index : Nat} {value : Word} (narrow : stack.Narrow)
    (small : value.toNat ≤ Address.greatest)
    (written : next.cells = stack.cells.setIfInBounds index value) : next.Narrow := by
  intro other cell found
  rw [written, Array.getElem?_setIfInBounds] at found
  split at found
  · split at found
    · cases found
      exact small
    · cases found
  · exact narrow other cell found

theorem Narrow.push (narrow : stack.Narrow) (success : stack.push address = .ok next) :
    next.Narrow := by
  rcases push_cases success with ⟨_, rfl⟩
  exact narrow.write (toNat_mask_le address) rfl

theorem Narrow.pop (narrow : stack.Narrow) (success : stack.pop = .ok (popped, next)) :
    next.Narrow :=
  narrow.write (Nat.zero_le _) (pop_cases success).2

theorem Narrow.toNat_popped_le (narrow : stack.Narrow) (success : stack.pop = .ok (popped, next)) :
    popped.toNat ≤ Address.greatest := by
  rw [CallStack.pop] at success
  split at success
  next => cases success
  next pointer used =>
    cases success
    cases found : stack.cells[pointer]? with
    | none => exact Nat.zero_le _
    | some cell => exact narrow pointer cell found

/-! ## The list of the addresses -/

theorem getElem?_toList {index : Nat} (used : index < stack.pointer) :
    stack.toList[index]? = stack.cells[index]? := by
  rw [toList, List.getElem?_take_of_lt used, Array.getElem?_toList]

theorem Clean.ext (cleanLeft : left.Clean) (cleanRight : right.Clean)
    (depths : left.depth = right.depth) (lists : left.toList = right.toList) : left = right := by
  have pointers : left.pointer = right.pointer := by
    rw [← cleanLeft.length_toList, lists, cleanRight.length_toList]
  have cells : left.cells = right.cells := by
    apply Array.ext_getElem?
    intro index
    by_cases used : index < left.pointer
    · rw [← getElem?_toList used, lists, getElem?_toList (pointers ▸ used)]
    · by_cases within : index < left.depth
      · rw [cleanLeft.unused index (Nat.le_of_not_lt used) within,
          cleanRight.unused index (by omega) (by omega)]
      · have outside : right.depth ≤ index := by omega
        rw [Array.getElem?_eq_none (Nat.le_of_not_lt within), Array.getElem?_eq_none outside]
  cases left
  cases right
  cases pointers
  cases cells
  rfl

/-! ## Frames at the bottom -/

structure Extends (stack : CallStack) (frame : List Word) (size : Nat) : Prop where
  clean : stack.Clean
  depth : stack.depth = size
  kept : frame <+: stack.toList

theorem Clean.extends_push (clean : stack.Clean) (success : stack.push address = .ok next) :
    next.Extends (stack.toList ++ [mask address]) stack.depth := by
  refine ⟨clean.push success, depth_push success, [], ?_⟩
  rw [List.append_nil, toList_push success]

theorem Extends.push (extended : stack.Extends frame size)
    (success : stack.push address = .ok next) : next.Extends frame size := by
  refine ⟨extended.clean.push success, (depth_push success).trans extended.depth, ?_⟩
  rw [toList_push success]
  exact extended.kept.trans (List.prefix_append _ _)

theorem Extends.pop (extended : stack.Extends frame size) (success : stack.pop = .ok (popped, next))
    (above : frame.length ≤ next.pointer) : next.Extends frame size := by
  have clean := extended.clean.pop success
  refine ⟨clean, (depth_pop success).trans extended.depth, ?_⟩
  have kept := extended.kept
  rw [toList_pop extended.clean.bounded success] at kept
  apply List.prefix_of_prefix_length_le kept (List.prefix_append _ _)
  rw [clean.length_toList]
  exact above

theorem Extends.pop_last {first : Word} (extended : stack.Extends (frame ++ [first]) size)
    (success : stack.pop = .ok (popped, next)) (back : next.pointer = frame.length) :
    popped = first ∧ next.toList = frame := by
  have length := (extended.clean.pop success).length_toList
  have kept := extended.kept
  rw [toList_pop extended.clean.bounded success] at kept
  have same : frame ++ [first] = next.toList ++ [popped] := by
    apply kept.eq_of_length
    rw [List.length_append, List.length_append, length, back]
    rfl
  rcases List.append_inj same (by rw [length, back]) with ⟨frames, tops⟩
  exact ⟨(List.singleton_inj.mp tops).symm, frames.symm⟩

end Chip8.CallStack
