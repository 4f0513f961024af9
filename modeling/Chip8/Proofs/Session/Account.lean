import Chip8.Proofs.Session.Calls

/-! # What happens during a history

Calls of a host differ in how much they do: a run takes many steps, and a load that is refused does
nothing. The account of a history lists what happened, step by step, with the time of each call. It
is made of machines and images alone, so properties of what a session logs, or of what its machines
went through, can be stated without running the session again.
-/

namespace Chip8

namespace Machine

def course (machine : Machine) : Nat → List Machine
  | 0 => []
  | count + 1 =>
      machine :: match machine.step with
        | .error _ => []
        | .ok next => next.course count

theorem course_of_ok {machine next : Machine} (success : machine.step = .ok next) (count : Nat) :
    machine.course (count + 1) = machine :: next.course count := by
  rw [course, success]

theorem course_of_error {machine : Machine} {fault : Fault} (failure : machine.step = .error fault)
    (count : Nat) : machine.course (count + 1) = [machine] := by
  rw [course, failure]

end Machine

namespace Session

inductive Episode
  | loaded (image : Image)
  | stepped (machine : Machine)
  | ran (count : Int)

def Episode.executes : Episode → Bool
  | .stepped machine => !machine.blocked && machine.step.isOk
  | _ => false

def Episode.fails : Episode → Bool
  | .stepped machine => !machine.step.isOk
  | _ => false

namespace Episode

variable {machine next : Machine}

theorem of_blocked (blocked : machine.blocked = true) :
    (stepped machine).executes = false ∧ (stepped machine).fails = false := by
  rw [executes, fails, blocked, Machine.step_of_blocked blocked]
  exact ⟨rfl, rfl⟩

theorem of_ok (free : machine.blocked = false) (success : machine.step = .ok next) :
    (stepped machine).executes = true ∧ (stepped machine).fails = false := by
  rw [executes, fails, free, success]
  exact ⟨rfl, rfl⟩

theorem of_error {fault : Fault} (failure : machine.step = .error fault) :
    (stepped machine).executes = false ∧ (stepped machine).fails = true := by
  rw [executes, fails, failure]
  exact ⟨Bool.and_false _, rfl⟩

end Episode

namespace Core

/-- A load that is refused is no episode. -/
def loads (core : Core) (image : Image) : List Episode :=
  if (core.loadImage image).2 = none then [.loaded image] else []

def episodes (core : Core) : Call → List Episode
  | .load data variant =>
      match Image.ofBytes data variant with
      | .error _ => []
      | .ok image => core.loads image
  | .loadImage image => core.loads image
  | .step => [.stepped core.machine]
  | .run count =>
      (core.machine.course count.toNat).map .stepped ++
        if (core.machine.steps count.toNat).2 = none then [.ran count] else []
  | .tick | .setKeys _ => []

def account (core : Core) : History → List (Time × Episode)
  | [] => []
  | (now, call) :: rest => (core.episodes call).map (now, ·) ++ (core.call call).1.account rest

end Core

end Session

end Chip8
