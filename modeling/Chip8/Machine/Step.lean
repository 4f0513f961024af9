import Chip8.Machine.Execute

/-!
# Steps

A step fetches the word at the program counter, decodes it and executes it. A machine that waits
for a key while none is down takes a step by staying as it is.
-/

namespace Chip8.Machine

def fetch (machine : Machine) : Except Fault (Word × Machine) :=
  match machine.memory.fetchWord machine.pc.toNat with
  | .error _ => .error (.badProgramCounter machine.pc.toNat)
  | .ok word => .ok (word, { machine with pc := machine.pc + 2 })

def step (machine : Machine) : Except Fault Machine :=
  if machine.blocked then
    .ok machine
  else
    match machine.fetch with
    | .error fault => .error fault
    | .ok (word, fetched) => fetched.executeNumber word.toNat

def steps (machine : Machine) : Nat → Machine × Option Fault
  | 0 => (machine, none)
  | count + 1 =>
      match machine.step with
      | .error fault => (machine, some fault)
      | .ok next => next.steps count

def ticks (machine : Machine) : Nat → Machine
  | 0 => machine
  | count + 1 => machine.tick.ticks count

end Chip8.Machine
