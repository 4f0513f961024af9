import Chip8.Proofs.Machine.Histories

/-! # Calls and their returns

While the stack pointer stays above the depth of a call, the addresses up to the return address of
the call stay at the bottom of the stack: steps push and pop above them only. The step that takes the
pointer back therefore pops that address, whatever was called, returned from or jumped to in between,
and leaves the stack as it was before the call.
-/

namespace Chip8.Machine

variable {machine next first : Machine} {depth : Nat} {frame : List Word}

/-! ## Calls and returns -/

/-- An instruction that lowers the stack pointer continues at the address that it pops. -/
theorem Effect.pop_of_lower {demand : Demand} {outcome : Except Fault Machine}
    (effect : machine.Effect demand outcome) (success : outcome = .ok next)
    (lower : next.stack.pointer < machine.stack.pointer) :
    machine.stack.pop = .ok (next.pc, next.stack) := by
  cases effect with
  | plain _ stack =>
      cases success
      rw [stack] at lower
      exact absurd lower (Nat.lt_irrefl _)
  | reads _ stack =>
      rcases map_eq_ok_iff.mp success with ⟨bytes, _, rfl⟩
      rw [stack] at lower
      exact absurd lower (Nat.lt_irrefl _)
  | writes =>
      rcases map_eq_ok_iff.mp success with ⟨_, _, rfl⟩
      exact absurd lower (Nat.lt_irrefl _)
  | pushes =>
      rcases map_eq_ok_iff.mp success with ⟨stack, pushed, rfl⟩
      rcases CallStack.push_cases pushed with ⟨_, rfl⟩
      exact absurd lower (Nat.not_lt_of_gt (Nat.lt_succ_self _))
  | pops =>
      rcases map_eq_ok_iff.mp success with ⟨⟨address, stack⟩, popped, rfl⟩
      exact popped

theorem pop_of_step (success : machine.step = .ok next)
    (lower : next.stack.pointer < machine.stack.pointer) :
    machine.stack.pop = .ok (next.pc, next.stack) := by
  rcases step_cases success with ⟨_, rfl⟩ | ⟨_, instruction, _, executed⟩
  · exact absurd lower (Nat.lt_irrefl _)
  · exact (machine.advanced.execute_effect instruction).pop_of_lower executed lower

theorem push_of_call {target : Address} (free : machine.blocked = false)
    (points : machine.Points ⟨.call, target⟩) (success : machine.step = .ok next) :
    machine.stack.push (machine.pc + 2).toNat = .ok next.stack := by
  rw [step_of_points free points] at success
  rcases map_eq_ok_iff.mp success with ⟨stack, pushed, rfl⟩
  exact pushed

/-! ## The run between -/

/-- Steps that succeed, with ticks and keys between them, that keep the stack pointer above a
depth. -/
inductive RunsAbove (depth : Nat) (first : Machine) : Machine → Prop
  | refl : RunsAbove depth first first
  | step {machine next : Machine} (run : RunsAbove depth first machine)
      (success : machine.step = .ok next) (above : depth < next.stack.pointer) :
      RunsAbove depth first next
  | tick {machine : Machine} (run : RunsAbove depth first machine) :
      RunsAbove depth first machine.tick
  | setKeys {machine : Machine} (bitmap : Int) (run : RunsAbove depth first machine) :
      RunsAbove depth first (machine.setKeys bitmap)

theorem extends_of_step (extended : machine.stack.Extends frame depth)
    (success : machine.step = .ok next) (above : frame.length ≤ next.stack.pointer) :
    next.stack.Extends frame depth := by
  have responds : machine.respond .step = .ok next := success
  rcases stack_of_respond responds with same | ⟨address, pushed⟩ | ⟨address, popped⟩
  · rw [same]
    exact extended
  · exact extended.push pushed
  · exact extended.pop popped above

/-- A run that stays above the level of a frame keeps the frame. -/
theorem RunsAbove.extends_stack {level : Nat} (run : RunsAbove level first machine)
    (begun : first.stack.Extends frame depth) (covered : frame.length ≤ level + 1) :
    machine.stack.Extends frame depth := by
  induction run with
  | refl => exact begun
  | step _ success above induction =>
      exact extends_of_step induction success (Nat.le_trans covered above)
  | tick _ induction => exact induction
  | setKeys _ _ induction => exact induction

theorem toNat_mask_return (pc : Word) :
    (CallStack.mask (pc + 2).toNat).toNat = (pc.toNat + 2) % 4096 := by
  have past : (pc + 2).toNat = (pc.toNat + 2) % 65536 := UInt16.toNat_add pc 2
  have masked := CallStack.toNat_mask (pc + 2).toNat
  omega

/-- A call from any reachable machine returns behind itself: when a run that kept the stack pointer
above that of the caller ends with a step that takes it back, the program counter is past the call
and the stack is that of the caller. -/
theorem returns_behind_call {before entered inside after : Machine} {target : Address}
    (reachable : before.Reachable) (free : before.blocked = false)
    (points : before.Points ⟨.call, target⟩) (called : before.step = .ok entered)
    (body : RunsAbove before.stack.pointer entered inside) (returned : inside.step = .ok after)
    (back : after.stack.pointer = before.stack.pointer) :
    after.pc.toNat = (before.pc.toNat + 2) % 4096 ∧
      (before.pc.toNat + 2 ≤ Address.greatest → after.pc.toNat = before.pc.toNat + 2) ∧
      after.stack = before.stack ∧
      ∀ index, before.stack.pointer ≤ index → index < before.stack.depth →
        after.stack.cells[index]? = some 0 := by
  have clean := reachable.clean
  have frame := clean.length_toList
  have begun := clean.extends_push (push_of_call free points called)
  have extended := body.extends_stack begun (by rw [List.length_append, frame]; rfl)
  -- The body keeps the return address on top of the frame, so the pointer has to come down.
  have lower : after.stack.pointer < inside.stack.pointer := by
    have kept := extended.kept.length_le
    rw [List.length_append, frame, extended.clean.length_toList, List.length_singleton] at kept
    omega
  have popped := pop_of_step returned lower
  rcases extended.pop_last popped (by rw [back, frame]) with ⟨pc, addresses⟩
  have stack : after.stack = before.stack :=
    (extended.clean.pop popped).ext clean
      ((CallStack.depth_pop popped).trans extended.depth) addresses
  have target := toNat_mask_return before.pc
  rw [← pc] at target
  refine ⟨target, ?_, stack, ?_⟩
  · intro small
    rw [target]
    exact Nat.mod_eq_of_lt (Nat.lt_succ_of_le small)
  · rw [stack]
    exact clean.unused

def atNestedCalls : Machine :=
  (ofParts 0 (.initial 0x20A) (.blank 8 1) (.empty 16) false).afterAll
    [.load ⟨[0x22, 0x06, 0x12, 0x02, 0x00, 0xEE, 0x22, 0x04, 0x00, 0xEE], .standard⟩]

theorem returns_behind_call_atNestedCalls :
    ∃ entered inside after : Machine, atNestedCalls.Reachable ∧
      atNestedCalls.step = .ok entered ∧ RunsAbove atNestedCalls.stack.pointer entered inside ∧
        inside.step = .ok after ∧ after.pc.toNat = 0x202 ∧ after.stack.toList = [] := by
  have reachable : atNestedCalls.Reachable :=
    ⟨{ memorySize := 0x20A, width := 8, height := 1 }, _, [_], rfl, rfl⟩
  have states : atNestedCalls.blocked = false ∧ atNestedCalls.stack.pointer = 0 ∧
      atNestedCalls.stack.toList = [] ∧ atNestedCalls.pc.toNat = 0x200 ∧
      atNestedCalls.memory.byte? atNestedCalls.pc.toNat = some 0x22 ∧
      atNestedCalls.memory.byte? (atNestedCalls.pc.toNat + 1) = some 0x06 ∧
      atNestedCalls.step.toOption.isSome = true ∧
      (atNestedCalls.after .step).step.toOption.isSome = true ∧
      ((atNestedCalls.after .step).after .step).tick.step.toOption.isSome = true ∧
      (((atNestedCalls.after .step).after .step).tick.after .step).step.toOption.isSome = true ∧
      ((atNestedCalls.after .step).after .step).stack.pointer = 2 ∧
      (((atNestedCalls.after .step).after .step).tick.after .step).stack.pointer = 1 ∧
      ((((atNestedCalls.after .step).after .step).tick.after .step).after .step).stack.pointer =
        0 := by
    decide +kernel
  rcases states with ⟨free, bottom, unused, place, high, low, calls, deepens, unwinds, returns,
    two, one, zero⟩
  have points : atNestedCalls.Points ⟨.call, 0x206⟩ := ⟨0x2206, ⟨high, low⟩, rfl⟩
  have called := step_eq_after calls
  have deepened := step_eq_after deepens
  have unwound := step_eq_after unwinds
  have returned := step_eq_after returns
  generalize atNestedCalls.after .step = entered at called deepened unwound returned two one zero
  generalize entered.after .step = deeper at deepened unwound returned two one zero
  generalize deeper.tick.after .step = inside at unwound returned one zero
  generalize inside.after .step = after at returned zero
  have body : RunsAbove atNestedCalls.stack.pointer entered inside :=
    .step (.tick (.step .refl deepened (by omega))) unwound (by omega)
  rcases returns_behind_call reachable free points called body returned (by omega) with
    ⟨_, behind, same, _⟩
  rw [place] at behind
  exact ⟨entered, inside, after, reachable, called, body, returned, behind (by decide),
    (congrArg CallStack.toList same).trans unused⟩

end Chip8.Machine
