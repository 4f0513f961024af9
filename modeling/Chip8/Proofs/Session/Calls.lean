import Chip8.Session.History
import Chip8.Proofs.Machine.Histories

/-! # What calls do to a session

Calls act on the core of a session, its machine and its image. The tracer and the clock decide only
what is logged, so the core after a call, what the call returns and its fault are functions of the
core before. Properties of sessions are proved of cores and carried over by `call_core` and
`after_core`.
-/

namespace Chip8.Session

def Call.isLoad : Call → Bool
  | .load .. | .loadImage _ => true
  | _ => false

def Call.image? : Call → Option Image
  | .load data variant => (Image.ofBytes data variant).toOption
  | .loadImage image => some image
  | _ => none

structure Core where
  fresh : Machine
  machine : Machine
  image : Option Image

def core (session : Session) : Core :=
  { fresh := session.fresh, machine := session.machine, image := session.image }

namespace Core

def loadImage (core : Core) (image : Image) : Core × Option Fault :=
  match core.fresh.load image with
  | .error fault => (core, some fault)
  | .ok machine => ({ core with machine, image := some image }, none)

def call (core : Core) : Call → Core × Option Fault
  | .load data variant =>
      match Image.ofBytes data variant with
      | .error fault => (core, some fault)
      | .ok image => core.loadImage image
  | .loadImage image => core.loadImage image
  | .step =>
      match core.machine.step with
      | .error fault => (core, some fault)
      | .ok machine => ({ core with machine }, none)
  | .run count =>
      ({ core with machine := (core.machine.steps count.toNat).1 },
        (core.machine.steps count.toNat).2)
  | .tick => ({ core with machine := core.machine.tick }, none)
  | .setKeys bitmap => ({ core with machine := core.machine.setKeys bitmap }, none)

def result (core : Core) (call : Call) : Option Nat :=
  if (core.call call).2 = none then call.image?.map Image.base else none

def after (core : Core) : List Call → Core
  | [] => core
  | call :: rest => (core.call call).1.after rest

/-- What is read off each of some calls. -/
def trail {α : Type} (read : Core → Call → α) (core : Core) : List Call → List α
  | [] => []
  | call :: rest => read core call :: trail read (core.call call).1 rest

def faults (core : Core) (calls : List Call) : List (Option Fault) :=
  core.trail (fun core call => (core.call call).2) calls

def results (core : Core) (calls : List Call) : List (Option Nat) := core.trail result calls

theorem result_eq_none {core : Core} {call : Call} (noImage : call.image? = none) :
    core.result call = none := by
  rw [result, noImage, Option.map_none, ite_self]

theorem fresh_loadImage (core : Core) (image : Image) :
    (core.loadImage image).1.fresh = core.fresh := by
  rw [loadImage]
  split <;> rfl

theorem fresh_call (core : Core) (call : Call) : (core.call call).1.fresh = core.fresh := by
  cases call with
  | load data variant =>
      rw [Core.call]
      split
      · rfl
      · exact core.fresh_loadImage _
  | loadImage image => exact core.fresh_loadImage image
  | step =>
      rw [Core.call]
      split <;> rfl
  | run | tick | setKeys => rfl

theorem fresh_after (core : Core) (calls : List Call) : (core.after calls).fresh = core.fresh := by
  induction calls generalizing core with
  | nil => rfl
  | cons call rest induction => rw [after, induction, fresh_call]

section

variable {Property : Machine → Prop} {core : Core}

theorem machine_loadImage (initially : Property core.machine)
    (loaded : ∀ {image machine}, core.fresh.load image = .ok machine → Property machine)
    (image : Image) : Property (core.loadImage image).1.machine := by
  rw [loadImage]
  split
  · exact initially
  · exact loaded ‹_›

theorem machine_call (preserved : Machine.Preserved Property) (initially : Property core.machine)
    (loaded : ∀ {image machine}, core.fresh.load image = .ok machine → Property machine)
    (call : Call) : Property (core.call call).1.machine := by
  cases call with
  | load data variant =>
      rw [Core.call]
      split
      · exact initially
      · exact machine_loadImage initially loaded _
  | loadImage image => exact machine_loadImage initially loaded image
  | step =>
      rw [Core.call]
      split
      · exact initially
      · exact preserved.step initially ‹_›
  | run count => exact preserved.steps initially count.toNat
  | tick => exact preserved.tick initially
  | setKeys bitmap => exact preserved.setKeys bitmap initially

theorem machine_after (preserved : Machine.Preserved Property) (initially : Property core.machine)
    (loaded : ∀ {image machine}, core.fresh.load image = .ok machine → Property machine)
    (calls : List Call) : Property (core.after calls).machine := by
  induction calls generalizing core with
  | nil => exact initially
  | cons call rest induction =>
      apply induction (machine_call preserved initially loaded call)
      rw [fresh_call]
      exact loaded

end

end Core

/-! ## Reports of steps

A step is reported before it counts. The report reads and decodes the word again, and does so where
the step did.
-/

theorem lookUp_of_holds {session : Session} {word : Word} {instruction : Instruction}
    (holds : session.machine.Holds word) (decoded : Instruction.ofWord? word = some instruction) :
    session.lookUp = .ok (word, instruction) := by
  have found := Machine.decode_of_ofWord? decoded
  rw [lookUp, Machine.fetchWord_of_holds holds]
  simp only [found]
  rfl

theorem trace_of_blocked {session : Session} (blocked : session.machine.blocked = true)
    (now : Time) : session.trace now = .ok (session.tracer, []) := by
  rw [trace]
  cases session.tracer with
  | none => rfl
  | some tracer =>
      simp only [blocked, Bool.not_true, Bool.and_false]
      rfl

theorem step_of_traced {session : Session} {next : Machine} {now : Time}
    {tracer : Option Log.Tracer} {lines : List Log.Line}
    (success : session.machine.step = .ok next)
    (reported : session.trace now = .ok (tracer, lines)) :
    session.step now = { session := { session with machine := next, tracer }, lines } := by
  rw [step, success]
  simp only [reported]

/-- The report of a step that succeeds never fails, so the step is not lost. -/
theorem exists_trace_eq {session : Session} {next : Machine} (now : Time)
    (success : session.machine.step = .ok next) :
    ∃ tracer lines, session.trace now = .ok (tracer, lines) := by
  rcases Machine.step_cases success with ⟨blocked, _⟩ | ⟨_, instruction, points, _⟩
  · exact ⟨session.tracer, [], trace_of_blocked blocked now⟩
  · rcases points with ⟨word, holds, decoded⟩
    rw [trace, lookUp_of_holds holds decoded]
    split
    · exact ⟨_, _, rfl⟩
    · split
      · exact ⟨_, _, rfl⟩
      · exact ⟨_, _, rfl⟩

/-! ## Sessions and their cores -/

private theorem loadImage_core (session : Session) (now : Time) (image : Image) :
    (session.loadImage now image).session.core = (session.core.loadImage image).1 ∧
      (session.loadImage now image).fault = (session.core.loadImage image).2 := by
  have outcome : session.core.fresh.load image = session.fresh.load image := rfl
  rw [loadImage, Core.loadImage, outcome]
  cases session.fresh.load image with
  | error fault => exact ⟨rfl, rfl⟩
  | ok machine => exact ⟨rfl, rfl⟩

theorem step_of_ok {session : Session} {next : Machine} (now : Time)
    (success : session.machine.step = .ok next) :
    (session.step now).session.core = { session.core with machine := next } ∧
      (session.step now).fault = none := by
  rcases exists_trace_eq now success with ⟨tracer, lines, reported⟩
  rw [step_of_traced success reported]
  exact ⟨rfl, rfl⟩

theorem step_of_error {session : Session} {fault : Fault} (now : Time)
    (failure : session.machine.step = .error fault) :
    (session.step now).session = session ∧ (session.step now).fault = some fault := by
  rw [step, failure]
  exact ⟨rfl, rfl⟩

theorem steps_core (session : Session) (now : Time) (count : Nat) :
    (session.steps now count).session.core =
        { session.core with machine := (session.machine.steps count).1 } ∧
      (session.steps now count).fault = (session.machine.steps count).2 := by
  induction count generalizing session with
  | zero => exact ⟨rfl, rfl⟩
  | succ count induction =>
      cases outcome : session.machine.step with
      | error fault =>
          rcases step_of_error now outcome with ⟨sameSession, reported⟩
          rw [steps, reported, Machine.steps_of_error outcome, sameSession]
          exact ⟨rfl, reported⟩
      | ok next =>
          rcases step_of_ok now outcome with ⟨nextCore, silent⟩
          rcases induction (session.step now).session with ⟨restCore, restFault⟩
          have nextMachine : (session.step now).session.machine = next :=
            congrArg Core.machine nextCore
          rw [nextCore, nextMachine] at restCore
          rw [nextMachine] at restFault
          rw [steps, silent, Machine.steps_of_ok outcome]
          exact ⟨restCore, restFault⟩

theorem run_eq_steps (session : Session) (now : Time) (count : Int) :
    (session.run now count).session = (session.steps now count.toNat).session ∧
      (session.run now count).fault = (session.steps now count.toNat).fault := by
  rw [run]
  split
  · exact ⟨rfl, rfl⟩
  · exact ⟨rfl, rfl⟩

theorem call_core (session : Session) (now : Time) (call : Call) :
    (session.call now call).session.core = (session.core.call call).1 ∧
      (session.call now call).fault = (session.core.call call).2 := by
  cases call with
  | load data variant =>
      rw [Session.call, load, Core.call]
      cases Image.ofBytes data variant with
      | error fault => exact ⟨rfl, rfl⟩
      | ok image => exact session.loadImage_core now image
  | loadImage image => exact session.loadImage_core now image
  | step =>
      rw [Session.call, Core.call]
      cases outcome : session.core.machine.step with
      | error fault =>
          rcases step_of_error now outcome with ⟨same, reported⟩
          rw [same, reported]
          exact ⟨rfl, rfl⟩
      | ok next => exact step_of_ok now outcome
  | run count =>
      rcases session.run_eq_steps now count with ⟨sameSession, sameFault⟩
      rw [Session.call, Core.call, sameSession, sameFault]
      exact session.steps_core now count.toNat
  | tick => exact ⟨rfl, rfl⟩
  | setKeys bitmap => exact ⟨rfl, rfl⟩

/-! ## What calls return -/

private theorem result_loadImage (session : Session) (now : Time) (image : Image) :
    (session.loadImage now image).result =
      if (session.core.loadImage image).2 = none then some image.base else none := by
  have outcome : session.core.fresh.load image = session.fresh.load image := rfl
  rw [loadImage, Core.loadImage, outcome]
  cases session.fresh.load image with
  | error fault => rfl
  | ok machine => rfl

theorem result_step (session : Session) (now : Time) : (session.step now).result = none := by
  rw [step]
  split
  · rfl
  · split <;> rfl

theorem result_steps (session : Session) (now : Time) (count : Nat) :
    (session.steps now count).result = none := by
  induction count generalizing session with
  | zero => rfl
  | succ count induction =>
      rw [steps]
      split
      · exact result_step session now
      · exact induction _

theorem result_run (session : Session) (now : Time) (count : Int) :
    (session.run now count).result = none := by
  rw [run]
  split
  · exact session.result_steps now count.toNat
  · exact session.result_steps now count.toNat

theorem result_call (session : Session) (now : Time) (call : Call) :
    (session.call now call).result = session.core.result call := by
  cases call with
  | load data variant =>
      rw [Session.call, load, Core.result, Core.call, Call.image?]
      cases Image.ofBytes data variant with
      | error fault => rfl
      | ok image => exact session.result_loadImage now image
  | loadImage image => exact session.result_loadImage now image
  | step => rw [Session.call, result_step, Core.result_eq_none rfl]
  | run count => rw [Session.call, result_run, Core.result_eq_none rfl]
  | tick => exact (Core.result_eq_none rfl).symm
  | setKeys bitmap => exact (Core.result_eq_none rfl).symm

/-! ## Histories -/

theorem after_core (session : Session) (history : History) :
    (session.after history).core = session.core.after (history.map Prod.snd) := by
  induction history generalizing session with
  | nil => rfl
  | cons entry rest induction =>
      rcases entry with ⟨now, call⟩
      rw [after, induction, (session.call_core now call).1]
      rfl

theorem map_replies {α : Type} {read : Reply → α} {coreRead : Core → Call → α}
    (agree : ∀ (session : Session) now call,
      read (session.call now call) = coreRead session.core call)
    (session : Session) (history : History) :
    (session.replies history).map read =
      session.core.trail coreRead (history.map Prod.snd) := by
  induction history generalizing session with
  | nil => rfl
  | cons entry rest induction =>
      rcases entry with ⟨now, call⟩
      have tail := induction (session.call now call).session
      rw [(session.call_core now call).1] at tail
      rw [replies, List.map_cons, tail, agree]
      rfl

theorem faultsOf_core (session : Session) (history : History) :
    session.faultsOf history = session.core.faults (history.map Prod.snd) :=
  map_replies (fun session now call => (session.call_core now call).2) session history

theorem resultsOf_core (session : Session) (history : History) :
    session.resultsOf history = session.core.results (history.map Prod.snd) :=
  map_replies result_call session history

/-! ## Sessions that a host can reach -/

def Reachable (session : Session) : Prop :=
  ∃ options tracer opened history, open? options tracer = .ok opened ∧
    opened.after history = session

theorem Reachable.machine {session : Session} (reachable : session.Reachable)
    {Property : Machine → Prop} (preserved : Machine.Preserved Property)
    (initially : ∀ {options machine}, Machine.build options = .ok machine → Property machine)
    (loaded : ∀ {options image machine next}, Machine.build options = .ok machine →
      machine.load image = .ok next → Property next) : Property session.machine := by
  rcases reachable with ⟨options, tracer, opened, history, begun, rfl⟩
  rcases map_eq_ok_iff.mp begun with ⟨machine, built, rfl⟩
  have holds : Property ((ofMachine machine tracer).core.after (history.map Prod.snd)).machine :=
    Core.machine_after preserved (initially built) (loaded built) _
  rw [← after_core] at holds
  exact holds

end Chip8.Session
