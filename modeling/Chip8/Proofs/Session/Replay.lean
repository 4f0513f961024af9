import Chip8.Proofs.Session.Calls

/-! # Replaying what succeeded

A session after any calls has the machine of a new session after the calls that succeeded, and of
these only the last load and what followed it matter. The induction is on the calls; a run counts as
the steps it took before the one that failed, and a load makes a machine in which nothing is left of
the one before.
-/

namespace Chip8

def Machine.stepsTaken (machine : Machine) : Nat → Nat
  | 0 => 0
  | count + 1 =>
      match machine.step with
      | .error _ => 0
      | .ok next => next.stepsTaken count + 1

theorem Machine.stepsTaken_of_ok {machine next : Machine} (success : machine.step = .ok next)
    (count : Nat) : machine.stepsTaken (count + 1) = next.stepsTaken count + 1 := by
  rw [stepsTaken, success]

theorem Machine.stepsTaken_of_error {machine : Machine} {fault : Fault}
    (failure : machine.step = .error fault) (count : Nat) : machine.stepsTaken (count + 1) = 0 := by
  rw [stepsTaken, failure]

theorem Machine.stepsTaken_of_none (machine : Machine) {count : Nat}
    (silent : (machine.steps count).2 = none) : machine.stepsTaken count = count := by
  induction count generalizing machine with
  | zero => rfl
  | succ count induction =>
      cases outcome : machine.step with
      | error fault =>
          rw [steps_of_error outcome] at silent
          cases silent
      | ok next =>
          rw [steps_of_ok outcome] at silent
          rw [stepsTaken_of_ok outcome, induction next silent]

namespace Session

/-- What a call achieved, as calls that succeed. -/
def achieved (session : Session) (now : Time) : Call → List Call
  | .run count =>
      match (session.run now count).fault with
      | none => List.replicate count.toNat .step
      | some _ => List.replicate (session.machine.stepsTaken count.toNat) .step
  | call => if (session.call now call).fault = none then [call] else []

def successes (session : Session) : History → List Call
  | [] => []
  | (now, call) :: rest =>
      session.achieved now call ++ (session.call now call).session.successes rest

/-- The calls from the last load on, or all if there is none. -/
def sinceLoad : List Call → List Call
  | [] => []
  | call :: rest => if rest.any Call.isLoad then sinceLoad rest else call :: rest

namespace Core

def Succeeds (core : Core) (calls : List Call) : Prop :=
  ∀ fault, fault ∈ core.faults calls → fault = none

theorem succeeds_cons_iff {core : Core} {call : Call} {rest : List Call} :
    core.Succeeds (call :: rest) ↔
      (core.call call).2 = none ∧ (core.call call).1.Succeeds rest := by
  simp only [Succeeds, faults, trail, List.mem_cons, forall_eq_or_imp]

theorem after_append (core : Core) (first second : List Call) :
    core.after (first ++ second) = (core.after first).after second := by
  induction first generalizing core with
  | nil => rfl
  | cons call rest induction => exact induction _

theorem Succeeds.append {core : Core} {first second : List Call} (before : core.Succeeds first)
    (behind : (core.after first).Succeeds second) : core.Succeeds (first ++ second) := by
  induction first generalizing core with
  | nil => exact behind
  | cons call rest induction =>
      rcases succeeds_cons_iff.mp before with ⟨silent, before⟩
      exact succeeds_cons_iff.mpr ⟨silent, induction before behind⟩

/-! ## Runs -/

theorem after_stepsTaken (core : Core) (count : Nat) :
    core.after (List.replicate (core.machine.stepsTaken count) .step) =
        { core with machine := (core.machine.steps count).1 } ∧
      core.Succeeds (List.replicate (core.machine.stepsTaken count) .step) := by
  induction count generalizing core with
  | zero => exact ⟨rfl, nofun⟩
  | succ count induction =>
      cases outcome : core.machine.step with
      | error fault =>
          rw [Machine.stepsTaken_of_error outcome, Machine.steps_of_error outcome]
          exact ⟨rfl, nofun⟩
      | ok next =>
          have stepped : core.call .step = ({ core with machine := next }, none) := by
            rw [call, outcome]
          rcases induction { core with machine := next } with ⟨reached, fine⟩
          rw [Machine.stepsTaken_of_ok outcome, Machine.steps_of_ok outcome, List.replicate_succ,
            after, succeeds_cons_iff, stepped]
          exact ⟨reached, rfl, fine⟩

/-! ## Calls that fail -/

theorem loadImage_of_fault {core : Core} {image : Image} {fault : Fault}
    (failure : (core.loadImage image).2 = some fault) : (core.loadImage image).1 = core := by
  rw [loadImage] at failure ⊢
  split at failure
  · rfl
  · cases failure

/-- A call that fails, other than a run, leaves no trace. -/
theorem call_of_fault {core : Core} {call : Call} {fault : Fault}
    (single : ∀ count, call ≠ .run count) (failure : (core.call call).2 = some fault) :
    (core.call call).1 = core := by
  cases call with
  | load data variant =>
      rw [Core.call] at failure ⊢
      split at failure
      · rfl
      · exact loadImage_of_fault failure
  | loadImage image => exact loadImage_of_fault failure
  | step =>
      rw [Core.call] at failure ⊢
      split at failure
      · rfl
      · cases failure
  | run count => exact absurd rfl (single count)
  | tick | setKeys => cases failure

/-! ## Loads -/

theorem loadImage_of_success {left right : Core} {image : Image} (fresh : left.fresh = right.fresh)
    (success : (left.loadImage image).2 = none) : left.loadImage image = right.loadImage image := by
  rw [loadImage] at success ⊢
  rw [loadImage, ← fresh]
  cases outcome : left.fresh.load image with
  | error fault =>
      rw [outcome] at success
      cases success
  | ok machine => rw [fresh]

theorem call_of_isLoad {left right : Core} {call : Call} (fresh : left.fresh = right.fresh)
    (isLoad : call.isLoad = true) (success : (left.call call).2 = none) :
    left.call call = right.call call := by
  cases call with
  | load data variant =>
      rw [Core.call] at success ⊢
      rw [Core.call]
      cases checked : Image.ofBytes data variant with
      | error fault =>
          rw [checked] at success
          cases success
      | ok image =>
          rw [checked] at success
          exact loadImage_of_success fresh success
  | loadImage image => exact loadImage_of_success fresh success
  | step | run | tick | setKeys => cases isLoad

/-- Only the calls from the last load on matter. Without a load the cores before must agree. -/
theorem after_sinceLoad {left right : Core} {calls : List Call} (fresh : left.fresh = right.fresh)
    (same : calls.any Call.isLoad = false → left = right) (fine : left.Succeeds calls) :
    left.after calls = right.after (sinceLoad calls) ∧ right.Succeeds (sinceLoad calls) := by
  induction calls generalizing left with
  | nil => exact ⟨same rfl, nofun⟩
  | cons call rest induction =>
      rcases succeeds_cons_iff.mp fine with ⟨silent, restFine⟩
      rw [sinceLoad]
      by_cases later : rest.any Call.isLoad = true
      · rw [if_pos later]
        apply induction _ _ restFine
        · rw [fresh_call, fresh]
        · intro none
          rw [none] at later
          cases later
      · rw [if_neg later]
        have head : left.call call = right.call call := by
          cases isLoad : call.isLoad with
          | true => exact call_of_isLoad fresh isLoad silent
          | false =>
              have noLoad : (call :: rest).any Call.isLoad = false := by
                rw [List.any_cons, isLoad, Bool.false_or]
                exact Bool.eq_false_iff.mpr later
              rw [same noLoad]
        rw [after, after, succeeds_cons_iff, ← head]
        exact ⟨rfl, silent, restFine⟩

/-! ## The image -/

theorem image_loadImage {core : Core} {image : Image}
    (success : (core.loadImage image).2 = none) :
    (core.loadImage image).1.image = some image := by
  rw [loadImage] at success ⊢
  split at success
  · cases success
  · rfl

theorem image_call {core : Core} {call : Call} (success : (core.call call).2 = none) :
    (core.call call).1.image = call.image?.or core.image := by
  cases call with
  | load data variant =>
      rw [Core.call] at success ⊢
      rw [Call.image?]
      cases checked : Image.ofBytes data variant with
      | error fault =>
          rw [checked] at success
          cases success
      | ok image =>
          rw [checked] at success
          exact image_loadImage success
  | loadImage image => exact image_loadImage success
  | step =>
      rw [Core.call]
      split <;> rfl
  | run | tick | setKeys => rfl

theorem image_after {core : Core} {calls : List Call} (fine : core.Succeeds calls) :
    (core.after calls).image = (calls.reverse.findSome? Call.image?).or core.image := by
  induction calls generalizing core with
  | nil => rfl
  | cons call rest induction =>
      rcases succeeds_cons_iff.mp fine with ⟨silent, restFine⟩
      rw [after, induction restFine, image_call silent, List.reverse_cons, List.findSome?_append,
        List.findSome?_singleton, Option.or_assoc]

end Core

/-! ## Replays -/

/-- What a call achieved leads to the core after the call. -/
theorem after_achieved (session : Session) (now : Time) (call : Call) :
    session.core.after (session.achieved now call) = (session.call now call).session.core ∧
      session.core.Succeeds (session.achieved now call) := by
  have single (call : Call) (notRun : ∀ count, call ≠ .run count) :
      session.core.after (if (session.call now call).fault = none then [call] else []) =
          (session.call now call).session.core ∧
        session.core.Succeeds (if (session.call now call).fault = none then [call] else []) := by
    rcases session.call_core now call with ⟨changed, reported⟩
    rw [changed, reported]
    cases outcome : (session.core.call call).2 with
    | none =>
        rw [if_pos rfl]
        exact ⟨rfl, Core.succeeds_cons_iff.mpr ⟨outcome, nofun⟩⟩
    | some fault =>
        rw [if_neg nofun, Core.call_of_fault notRun outcome]
        exact ⟨rfl, nofun⟩
  cases call with
  | run count =>
      rcases session.call_core now (.run count) with ⟨changed, reported⟩
      have replayed := session.core.after_stepsTaken count.toNat
      rw [changed, achieved]
      split
      next silent =>
          have taken := session.machine.stepsTaken_of_none (reported.symm.trans silent)
          rw [← taken]
          exact replayed
      next => exact replayed
  | load data variant => exact single (.load data variant) nofun
  | loadImage image => exact single (.loadImage image) nofun
  | step => exact single .step nofun
  | tick => exact single .tick nofun
  | setKeys bitmap => exact single (.setKeys bitmap) nofun

theorem after_successes (session : Session) (history : History) :
    session.core.after (session.successes history) = (session.after history).core ∧
      session.core.Succeeds (session.successes history) := by
  induction history generalizing session with
  | nil => exact ⟨rfl, nofun⟩
  | cons entry rest induction =>
      rcases entry with ⟨now, call⟩
      rcases session.after_achieved now call with ⟨reached, fine⟩
      rcases induction (session.call now call).session with ⟨restReached, restFine⟩
      rw [successes, after, Core.after_append, reached, restReached]
      rw [← reached] at restFine
      exact ⟨rfl, fine.append restFine⟩

/-- The calls that succeeded since the last load, made on a new session of the same options, succeed
again and lead to the same machine. The image is that of the last load. -/
theorem machine_after_eq_replay {options : Options} {tracer other : Option Log.Tracer}
    {opened renewed : Session} (begun : open? options tracer = .ok opened)
    (again : open? options other = .ok renewed) (history : History) (now : Time) :
    (opened.after history).machine =
        (renewed.after ((sinceLoad (opened.successes history)).map (now, ·))).machine ∧
      (∀ fault, fault ∈ renewed.faultsOf ((sinceLoad (opened.successes history)).map (now, ·)) →
        fault = none) ∧
      (opened.after history).image =
        (opened.successes history).reverse.findSome? Call.image? := by
  rcases map_eq_ok_iff.mp begun with ⟨machine, built, rfl⟩
  rcases map_eq_ok_iff.mp again with ⟨same, rebuilt, rfl⟩
  rcases Except.ok.inj (built.symm.trans rebuilt) with rfl
  rcases after_successes (ofMachine machine tracer) history with ⟨reached, fine⟩
  have replayed :
      (ofMachine machine tracer).core.after ((ofMachine machine tracer).successes history) =
          (ofMachine machine other).core.after
            (sinceLoad ((ofMachine machine tracer).successes history)) ∧
        (ofMachine machine other).core.Succeeds
          (sinceLoad ((ofMachine machine tracer).successes history)) :=
    Core.after_sinceLoad rfl (fun _ => rfl) fine
  have calls (replay : List Call) : (replay.map fun call => (now, call)).map Prod.snd = replay := by
    rw [List.map_map]
    exact List.map_id replay
  refine ⟨?_, ?_, ?_⟩
  · have renewedCore := (ofMachine machine other).after_core
      ((sinceLoad ((ofMachine machine tracer).successes history)).map (now, ·))
    rw [calls, ← replayed.1, reached] at renewedCore
    exact (congrArg Core.machine renewedCore).symm
  · rw [faultsOf_core, calls]
    exact replayed.2
  · have images := Core.image_after fine
    rw [reached] at images
    exact images.trans Option.or_none

/-- Two loads and a run fail here, the run after its first step. -/
theorem machine_after_eq_replay_of_failures :
    ∃ opened, open? { memorySize := 0x204, width := 8, height := 1 } none = .ok opened ∧
      (opened.after [(0, .load [] none), (1, .tick), (2, .load [0x60, 0x07, 0x00, 0xEE] none),
          (3, .run 5), (4, .tick), (5, .load [0, 0, 0, 0, 0, 0] none)]).machine =
        (opened.after
          [(6, .load [0x60, 0x07, 0x00, 0xEE] none), (6, .step), (6, .tick)]).machine := by
  let opened := ofMachine (Machine.ofParts 0 (.initial 0x204) (.blank 8 1) (.empty 16) false) none
  have begun : open? { memorySize := 0x204, width := 8, height := 1 } none = .ok opened := rfl
  have replay := machine_after_eq_replay begun begun
    [(0, .load [] none), (1, .tick), (2, .load [0x60, 0x07, 0x00, 0xEE] none),
      (3, .run 5), (4, .tick), (5, .load [0, 0, 0, 0, 0, 0] none)] 6
  have calls : sinceLoad (opened.successes [(0, .load [] none), (1, .tick),
      (2, .load [0x60, 0x07, 0x00, 0xEE] none), (3, .run 5), (4, .tick),
      (5, .load [0, 0, 0, 0, 0, 0] none)]) =
        [.load [0x60, 0x07, 0x00, 0xEE] none, .step, .tick] := by
    decide +kernel
  rw [calls] at replay
  exact ⟨opened, begun, replay.1⟩

end Session

end Chip8
