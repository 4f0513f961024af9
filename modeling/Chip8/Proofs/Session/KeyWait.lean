import Chip8.Proofs.Machine.KeyWait
import Chip8.Proofs.Session.Steps

/-! # Sessions that wait for a key

A session that waits stands still: as long as no step finds a key down, calls count down the timers
and set keys, and nothing else happens. The first step that finds a key down ends the wait.
-/

namespace Chip8.Session

def Call.Steps : Call → Prop
  | .step => True
  | .run count => 0 < count
  | _ => False

/-- No call loads an image, and no key is down when a call takes a step. -/
def Idle (session : Session) : History → Prop
  | [] => True
  | (now, call) :: rest =>
      call.isLoad = false ∧
        (call.Steps → ∀ key, session.machine.keypad.isDown key = false) ∧
        (session.call now call).session.Idle rest

def Call.ticks : Call → Nat
  | .tick => 1
  | _ => 0

def Call.keys (keypad : Keypad) : Call → Keypad
  | .setKeys bitmap => .ofBitmap bitmap
  | _ => keypad

def tickCount : History → Nat
  | [] => 0
  | (_, call) :: rest => call.ticks + tickCount rest

def lastKeys (keypad : Keypad) : History → Keypad
  | [] => keypad
  | (_, call) :: rest => lastKeys (call.keys keypad) rest

variable {session : Session} {x : Register}

theorem waitSound_of_reachable (reachable : session.Reachable) : session.machine.WaitSound := by
  have awake {options : Options} {machine : Machine} (built : Machine.build options = .ok machine) :
      machine.waiting = none := by
    rcases Machine.parts_of_build built with ⟨memory, display, stack, _, _, _, rfl⟩
    rfl
  apply reachable.machine Machine.preserved_waitSound
  · intro options machine built
    exact .of_none (awake built)
  · intro options image machine next built loaded
    have sleepless := awake built
    rcases map_eq_ok_iff.mp loaded with ⟨memory, _, rfl⟩
    exact .of_none sleepless

/-! ## Standing still -/

theorem steps_of_blocked (blocked : session.machine.blocked = true) (now : Time) (count : Nat) :
    session.steps now count = { session } := by
  induction count with
  | zero => rfl
  | succ count induction =>
      rw [steps, step_of_blocked blocked, induction]
      rfl

/-- A call of a waiting session counts down the timers or sets the keys, or it does nothing. -/
theorem call_of_idle {call : Call} (waits : session.machine.waiting = some x)
    (noLoad : call.isLoad = false)
    (released : call.Steps → ∀ key, session.machine.keypad.isDown key = false) (now : Time) :
    (session.call now call).session =
        { session with
          machine := session.machine.idled call.ticks (call.keys session.machine.keypad) } ∧
      (session.call now call).fault = none := by
  cases call with
  | load | loadImage => cases noLoad
  | step =>
      have blocked := Machine.blocked_of_released waits (released trivial)
      rw [Session.call, step_of_blocked blocked]
      simp only [Call.ticks, Call.keys, Machine.idled_zero, and_self]
  | run count =>
      rw [Session.call, (session.run_eq_steps now count).1, (session.run_eq_steps now count).2]
      simp only [Call.ticks, Call.keys, Machine.idled_zero]
      by_cases positive : 0 < count
      · have blocked := Machine.blocked_of_released waits (released positive)
        rw [steps_of_blocked blocked]
        exact ⟨rfl, rfl⟩
      · rw [Int.toNat_of_nonpos (Int.not_lt.mp positive)]
        exact ⟨rfl, rfl⟩
  | tick =>
      rw [Session.call, tick, Machine.tick_eq_idled]
      exact ⟨rfl, rfl⟩
  | setKeys bitmap =>
      rw [Session.call, setKeys, Machine.setKeys_eq_idled]
      exact ⟨rfl, rfl⟩

theorem after_of_idle {idle : History} (waits : session.machine.waiting = some x)
    (quiet : session.Idle idle) :
    session.after idle =
        { session with
          machine := session.machine.idled (tickCount idle)
            (lastKeys session.machine.keypad idle) } ∧
      ∀ fault, fault ∈ session.faultsOf idle → fault = none := by
  induction idle generalizing session with
  | nil =>
      rw [tickCount, lastKeys, Machine.idled_zero]
      exact ⟨rfl, nofun⟩
  | cons entry rest induction =>
      rcases entry with ⟨now, call⟩
      rcases quiet with ⟨noLoad, released, restQuiet⟩
      rcases call_of_idle waits noLoad released now with ⟨changed, silent⟩
      have stillWaits : (session.call now call).session.machine.waiting = some x := by
        rw [changed]
        exact waits
      rcases induction stillWaits restQuiet with ⟨reached, fine⟩
      constructor
      · rw [after, reached, changed, Machine.idled_idled]
        rfl
      · intro fault member
        rw [faultsOf, replies, List.map_cons, List.mem_cons, silent] at member
        rcases member with equal | later
        · exact equal
        · exact fine fault later

/-! ## The end of a wait -/

theorem run_of_pos {count : Int} (positive : 0 < count) {now : Time}
    (silent : (session.step now).fault = none) :
    (session.run now count).session =
        ((session.step now).session.run now (count - 1)).session ∧
      (session.run now count).fault = ((session.step now).session.run now (count - 1)).fault := by
  have number : count.toNat = (count - 1).toNat + 1 := by omega
  rw [(session.run_eq_steps now count).1, (session.run_eq_steps now count).2, number, steps, silent]
  rcases (session.step now).session.run_eq_steps now (count - 1) with ⟨rest, restFault⟩
  exact ⟨rest.symm, restFault.symm⟩

/-- The next step ends a wait with a key, whether it is taken alone or is the first of a run. -/
structure EndsWait (session : Session) (x : Register) (key : Fin 16) : Prop where
  succeeds : ∀ now, (session.step now).fault = none
  changes : ∀ now, (session.step now).session.core =
    { session.core with
      machine := { session.machine with
        v := session.machine.v.put x (UInt8.ofNat key.val)
        pc := session.machine.pc + 2
        waiting := none } }
  runs : ∀ now count, 0 < count →
    (session.run now count).session =
        ((session.step now).session.run now (count - 1)).session ∧
      (session.run now count).fault = ((session.step now).session.run now (count - 1)).fault

theorem endsWait_of_points {key : Fin 16} (points : session.machine.Points ⟨.waitKey, x⟩)
    (lowest : session.machine.keypad.lowest? = some key) : session.EndsWait x key := by
  have ended := Machine.step_of_pressed points lowest
  constructor
  · intro now
    exact (step_of_ok now ended).2
  · intro now
    exact (step_of_ok now ended).1
  · intro now count positive
    exact run_of_pos positive (step_of_ok now ended).2

/-- A session that waits for a key stands on the instruction it waits in. Until a step finds a key
down, calls other than loads succeed and change the timers and the keys alone; that step ends the
wait with the lowest key that is down. -/
theorem keyWait_protocol (reachable : session.Reachable)
    (waits : session.machine.waiting = some x) :
    session.machine.Holds (Instruction.encode ⟨.waitKey, x⟩) ∧
      ∀ idle, session.Idle idle →
        session.after idle =
            { session with
              machine := session.machine.idled (tickCount idle)
                (lastKeys session.machine.keypad idle) } ∧
          (∀ fault, fault ∈ session.faultsOf idle → fault = none) ∧
          ((∃ key, (session.after idle).machine.keypad.isDown key = true) →
            ∃ key, (session.after idle).machine.keypad.isDown key = true ∧
              (∀ lower, lower < key →
                (session.after idle).machine.keypad.isDown lower = false) ∧
              (session.after idle).EndsWait x key) := by
  have holds := waitSound_of_reachable reachable x waits
  refine ⟨holds, ?_⟩
  intro idle quiet
  rcases after_of_idle waits quiet with ⟨reached, fine⟩
  refine ⟨reached, fine, ?_⟩
  intro pressed
  rcases Option.isSome_iff_exists.mp (Keypad.anyDown_eq_true_iff.mpr pressed) with ⟨key, lowest⟩
  rcases Keypad.lowest?_eq_some_iff.mp lowest with ⟨down, least⟩
  have points : (session.after idle).machine.Points ⟨.waitKey, x⟩ := by
    rw [reached]
    exact holds.points nofun
  exact ⟨key, down, least, endsWait_of_points points lowest⟩

def pausedAtKey : Session :=
  (ofMachine (Machine.ofParts 0 (.initial 0x202) (.blank 8 1) (.empty 16) false) none).after
    [(0, .load [0xF3, 0x0A] none), (0, .step)]

theorem keyWait_protocol_pausedAtKey :
    pausedAtKey.Reachable ∧ pausedAtKey.machine.waiting = some 3 ∧
      pausedAtKey.Idle [(0, .tick), (1, .run 5), (1, .setKeys 0x24)] ∧
      pausedAtKey.machine.Holds 0xF30A ∧
      ∃ key, (pausedAtKey.after [(0, .tick), (1, .run 5), (1, .setKeys 0x24)]).EndsWait 3 key := by
  have reachable : pausedAtKey.Reachable :=
    ⟨{ memorySize := 0x202, width := 8, height := 1 }, none, _, _, rfl, rfl⟩
  have waits : pausedAtKey.machine.waiting = some 3 := by decide +kernel
  have quiet : pausedAtKey.Idle [(0, .tick), (1, .run 5), (1, .setKeys 0x24)] :=
    ⟨rfl, nofun, rfl, fun _ => by decide +kernel, rfl, nofun, trivial⟩
  rcases keyWait_protocol reachable waits with ⟨holds, still⟩
  rcases still _ quiet with ⟨_, _, resumes⟩
  rcases resumes ⟨2, by decide +kernel⟩ with ⟨key, _, _, ended⟩
  exact ⟨reachable, waits, quiet, holds, key, ended⟩

end Chip8.Session
