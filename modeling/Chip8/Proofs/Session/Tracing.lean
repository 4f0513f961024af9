import Chip8.Proofs.Session.Account
import Chip8.Proofs.Session.Steps
import Mathlib.Data.List.Forall2

/-! # What a tracer tells

A tracer that traces tells the account of a history: a line for each image that was loaded, for each
instruction that was executed, for each step that failed and for each run that came to its end, and
nothing for a step that was blocked. It has its own way to the word of an instruction, which it
fetches and decodes once the step is over and before the step counts; that this never fails and
gives the word that was executed follows from the step itself, so nothing the step wrote to memory
matters.
-/

namespace Chip8

namespace Session

/-- The lines about an episode, on a console opened at `start`, and the count of instructions behind
it. -/
inductive Tells (start now : Time) (count : Nat) : Episode → List Log.Line → Nat → Prop
  | loaded {image : Image} :
      Tells start now count (.loaded image)
        [⟨now - start, .loaded image.size image.base image.variant.name⟩] count
  | blocked {machine : Machine} (blocked : machine.blocked = true) :
      Tells start now count (.stepped machine) [] count
  | executed {machine next : Machine} {word : Word} {instruction : Instruction}
      (free : machine.blocked = false) (success : machine.step = .ok next)
      (holds : machine.Holds word) (decoded : Instruction.ofWord? word = some instruction) :
      Tells start now count (.stepped machine)
        [⟨now - start, .executed machine.pc.toNat word.toNat (some instruction)⟩] (count + 1)
  | halted {machine : Machine} {fault : Fault} (failure : machine.step = .error fault) :
      Tells start now count (.stepped machine)
        [⟨now - start, .halted machine.pc.toNat count fault.message⟩] count
  | ran {steps : Int} :
      Tells start now count (.ran steps) [⟨now - start, .finished steps count (now - start)⟩] count

inductive Narrates (start : Time) : Nat → List (Time × Episode) → List Log.Line → Nat → Prop
  | nil {count : Nat} : Narrates start count [] [] count
  | cons {now : Time} {episode : Episode} {count middle last : Nat}
      {episodes : List (Time × Episode)} {lines later : List Log.Line}
      (head : Tells start now count episode lines middle)
      (rest : Narrates start middle episodes later last) :
      Narrates start count ((now, episode) :: episodes) (lines ++ later) last

theorem Narrates.append {start : Time} {count middle last : Nat}
    {episodes others : List (Time × Episode)} {lines later : List Log.Line}
    (before : Narrates start count episodes lines middle)
    (behind : Narrates start middle others later last) :
    Narrates start count (episodes ++ others) (lines ++ later) last := by
  induction before with
  | nil => exact behind
  | cons head _ induction =>
      rw [List.append_assoc]
      exact .cons head (induction behind)

/-! ## Lines about steps -/

/-- The line names the instruction that a step executed, and the place and the word it had in the
memory from which it was executed. -/
def ShowsInstruction (console : Log.Console) (line : Log.Line) : Time × Episode → Prop
  | (now, .stepped machine) =>
      ∃ word instruction, machine.Holds word ∧ Instruction.ofWord? word = some instruction ∧
        console.render line = console.lineText (now - console.start) "\x1b[36m" "[DEBUG]"
          ("0x" ++ Text.Hex.numeral 3 machine.pc.toNat ++ ": " ++
            Text.Hex.numeral 4 word.toNat ++ "  " ++ instruction.text)
  | _ => False

def ShowsFault (console : Log.Console) (line : Log.Line) : Time × Episode → Prop
  | (now, .stepped machine) =>
      ∃ fault count, machine.step = .error fault ∧
        console.render line = console.lineText (now - console.start) "\x1b[31m" "[ERROR]"
          ("Halted at 0x" ++ Text.Hex.numeral 3 machine.pc.toNat ++ " after " ++
            toString (count : Nat) ++ " instructions: " ++ fault.message)
  | _ => False

section

variable {console : Log.Console} {start : Time} {count last : Nat}
  {episodes : List (Time × Episode)} {lines : List Log.Line}

theorem Narrates.forall₂_filter {Shows : Log.Line → Time × Episode → Prop}
    {kind : Log.Line → Bool} {picks : Episode → Bool}
    (single : ∀ {now count episode lines next}, Tells start now count episode lines next →
      List.Forall₂ Shows (lines.filter kind) ([(now, episode)].filter fun entry => picks entry.2))
    (narrates : Narrates start count episodes lines last) :
    List.Forall₂ Shows (lines.filter kind) (episodes.filter fun entry => picks entry.2) := by
  induction narrates with
  | nil => exact .nil
  | @cons now episode _ _ _ episodes lines later head _ induction =>
      rw [List.filter_append, ← List.singleton_append, List.filter_append]
      exact List.rel_append (single head) induction

theorem Narrates.instructions (narrates : Narrates console.start count episodes lines last) :
    List.Forall₂ (ShowsInstruction console) (lines.filter fun line => line.message.level = .debug)
      (episodes.filter fun entry => entry.2.executes) := by
  refine narrates.forall₂_filter fun tells => ?_
  cases tells with
  | blocked blocked =>
      rw [List.filter_singleton, (Episode.of_blocked blocked).1]
      exact .nil
  | executed free success holds decoded =>
      rw [List.filter_singleton, List.filter_singleton, (Episode.of_ok free success).1]
      exact .cons ⟨_, _, holds, decoded, Log.Console.render_of_debug rfl⟩ .nil
  | halted failure =>
      rw [List.filter_singleton, List.filter_singleton, (Episode.of_error failure).1]
      exact .nil
  | loaded | ran => exact .nil

theorem Narrates.faults (narrates : Narrates console.start count episodes lines last) :
    List.Forall₂ (ShowsFault console) (lines.filter fun line => line.message.level = .error)
      (episodes.filter fun entry => entry.2.fails) := by
  refine narrates.forall₂_filter fun tells => ?_
  cases tells with
  | blocked blocked =>
      rw [List.filter_singleton, (Episode.of_blocked blocked).2]
      exact .nil
  | executed free success =>
      rw [List.filter_singleton, List.filter_singleton, (Episode.of_ok free success).2]
      exact .nil
  | halted failure =>
      rw [List.filter_singleton, List.filter_singleton, (Episode.of_error failure).2]
      exact .cons ⟨_, _, failure, Log.Console.render_of_error rfl⟩ .nil
  | loaded | ran => exact .nil

theorem Tells.last_eq {now : Time} {episode : Episode}
    (tells : Tells start now count episode lines last) :
    last = count + bif episode.executes then 1 else 0 := by
  cases tells with
  | blocked blocked => rw [(Episode.of_blocked blocked).1, cond_false, Nat.add_zero]
  | executed free success => rw [(Episode.of_ok free success).1, cond_true]
  | halted failure => rw [(Episode.of_error failure).1, cond_false, Nat.add_zero]
  | loaded | ran => rfl

theorem Narrates.last_eq (narrates : Narrates start count episodes lines last) :
    last = count + episodes.countP fun entry => entry.2.executes := by
  induction narrates with
  | nil => rfl
  | @cons now episode _ _ _ _ _ _ head _ induction =>
      rw [induction, head.last_eq, List.countP_cons]
      cases episode.executes <;> simp; omega

end

/-! ## Sessions that are watched -/

def watched (session : Session) (tracer : Option Log.Tracer) : Session := { session with tracer }

def Told (console : Log.Console) (count : Nat) (episodes : List (Time × Episode))
    (lines : List Log.Line) (session : Session) : Prop :=
  ∃ last, session.tracer = some { console, count := last } ∧
    Narrates console.start count episodes lines last

variable {session middle last : Session} {console : Log.Console} {count : Nat}
  {episodes others : List (Time × Episode)} {lines later : List Log.Line}

theorem Told.nil (watched : session.tracer = some { console, count }) :
    Told console count [] [] session :=
  ⟨count, watched, .nil⟩

theorem Told.single {now : Time} {episode : Episode} {next : Nat}
    (watched : session.tracer = some { console, count := next })
    (tells : Tells console.start now count episode lines next) :
    Told console count [(now, episode)] lines session := by
  refine ⟨next, watched, ?_⟩
  rw [← lines.append_nil]
  exact .cons tells .nil

theorem Told.append (before : Told console count episodes lines middle)
    (behind : ∀ count, middle.tracer = some { console, count } →
      Told console count others later last) :
    Told console count (episodes ++ others) (lines ++ later) last := by
  rcases before with ⟨between, watched, first⟩
  rcases behind between watched with ⟨final, watchedToo, second⟩
  exact ⟨final, watchedToo, first.append second⟩

section

variable (lightest : console.enabled .debug = true)

include lightest

theorem told_loadImage (watched : session.tracer = some { console, count }) (now : Time)
    (image : Image) :
    Told console count ((session.core.loads image).map (now, ·)) (session.loadImage now image).lines
      (session.loadImage now image).session := by
  have outcome : session.core.fresh.load image = session.fresh.load image := rfl
  rw [loadImage, Core.loads, Core.loadImage, outcome]
  cases session.fresh.load image with
  | error fault => exact .nil watched
  | ok machine =>
      simp only [report, watched, Log.Tracer.loaded, Log.Console.log_of_debug lightest]
      exact .single rfl .loaded

theorem told_step (watched : session.tracer = some { console, count }) (now : Time) :
    Told console count [(now, .stepped session.machine)] (session.step now).lines
      (session.step now).session := by
  cases outcome : session.machine.step with
  | error fault =>
      rw [step_of_fault outcome, report, watched]
      simp only [Log.Tracer.halted, Log.Console.log_of_debug lightest]
      exact .single watched (.halted outcome)
  | ok next =>
      rcases Machine.step_cases outcome with ⟨blocked, _⟩ | ⟨free, instruction, points, _⟩
      · rw [step_of_blocked blocked]
        exact .single watched (.blocked blocked)
      · rcases points with ⟨word, holds, decoded⟩
        rw [step_of_executed session watched lightest free holds decoded outcome]
        exact .single rfl (.executed free outcome holds decoded)

theorem told_steps (watched : session.tracer = some { console, count }) (now : Time)
    (steps : Nat) :
    Told console count ((session.machine.course steps).map fun machine => (now, .stepped machine))
      (session.steps now steps).lines (session.steps now steps).session := by
  induction steps generalizing session count with
  | zero => exact .nil watched
  | succ steps induction =>
      have first := told_step lightest watched now
      cases outcome : session.machine.step with
      | error fault =>
          rw [Session.steps, (step_of_error now outcome).2, Machine.course_of_error outcome]
          exact first
      | ok next =>
          have machine : (session.step now).session.machine = next :=
            congrArg Core.machine (step_of_ok now outcome).1
          rw [Session.steps, (step_of_ok now outcome).2, Machine.course_of_ok outcome, ← machine]
          exact first.append fun count stillWatched => induction stillWatched

theorem told_run (watched : session.tracer = some { console, count }) (now : Time)
    (steps : Int) :
    Told console count ((session.core.episodes (.run steps)).map (now, ·))
      (session.run now steps).lines (session.run now steps).session := by
  have taken := told_steps lightest watched now steps.toNat
  have silent : (session.steps now steps.toNat).fault = (session.core.machine.steps _).2 :=
    (session.steps_core now steps.toNat).2
  rw [run, Core.episodes, List.map_append, List.map_map, ← silent]
  cases (session.steps now steps.toNat).fault with
  | some fault =>
      rw [if_neg (Option.some_ne_none fault), List.map_nil, List.append_nil]
      exact taken
  | none =>
      rw [if_pos rfl]
      refine taken.append fun count stillWatched => ?_
      simp only [report, stillWatched, Log.Tracer.finished, Log.Console.log_of_debug lightest]
      exact .single stillWatched .ran

theorem told_call (watched : session.tracer = some { console, count }) (now : Time)
    (call : Call) :
    Told console count ((session.core.episodes call).map (now, ·)) (session.call now call).lines
      (session.call now call).session := by
  cases call with
  | load data variant =>
      rw [Session.call, load, Core.episodes]
      cases Image.ofBytes data variant with
      | error fault => exact .nil watched
      | ok image => exact told_loadImage lightest watched now image
  | loadImage image => exact told_loadImage lightest watched now image
  | step => exact told_step lightest watched now
  | run steps => exact told_run lightest watched now steps
  | tick | setKeys => exact .nil watched

theorem told_history (watched : session.tracer = some { console, count }) (history : History) :
    Told console count (session.core.account history) (session.linesOf history)
      (session.after history) := by
  induction history generalizing session count with
  | nil => exact .nil watched
  | cons entry rest induction =>
      rcases entry with ⟨now, call⟩
      rw [linesOf, replies, List.flatMap_cons, Core.account, ← (session.call_core now call).1]
      exact (told_call lightest watched now call).append fun count stillWatched =>
        induction stillWatched

theorem printedBy_eq (watched : session.tracer = some { console, count }) (history : History) :
    session.printedBy history = (session.linesOf history).map console.render := by
  induction history generalizing session count with
  | nil => rfl
  | cons entry rest induction =>
      rcases entry with ⟨now, call⟩
      rcases told_call lightest watched now call with ⟨next, stillWatched, _⟩
      have later := induction stillWatched
      rw [printedBy, linesOf] at later ⊢
      rw [replies, List.flatMap_cons, List.flatMap_cons, List.map_append, later,
        Reply.printed_of_watched stillWatched]

end

/-- A tracer that traces tells the whole history, and counts the instructions that were executed. -/
theorem narrates_history (session : Session) {tracer : Log.Tracer}
    (tracing : tracer.tracing = true) (history : History) :
    ∃ last, last = tracer.count +
        (session.core.account history).countP (fun entry => entry.2.executes) ∧
      ((session.watched (some tracer)).after history).tracer =
        some { tracer with count := last } ∧
      Narrates tracer.console.start tracer.count (session.core.account history)
        ((session.watched (some tracer)).linesOf history) last := by
  have told : Told tracer.console tracer.count (session.core.account history)
      ((session.watched (some tracer)).linesOf history)
      ((session.watched (some tracer)).after history) :=
    told_history tracing rfl history
  rcases told with ⟨last, counted, narrates⟩
  exact ⟨last, narrates.last_eq, counted, narrates⟩

structure TracedBy (session : Session) (tracer : Log.Tracer) (history : History) : Prop where
  lines : Narrates tracer.console.start tracer.count (session.core.account history)
    ((session.watched (some tracer)).linesOf history)
    (tracer.count + (session.core.account history).countP fun entry => entry.2.executes)
  count : ((session.watched (some tracer)).after history).tracer = some { tracer with
    count := tracer.count + (session.core.account history).countP fun entry => entry.2.executes }
  printed : (session.watched (some tracer)).printedBy history =
    ((session.watched (some tracer)).linesOf history).map tracer.console.render
  instructions : List.Forall₂ (ShowsInstruction tracer.console)
    (((session.watched (some tracer)).linesOf history).filter fun line =>
      line.message.level = .debug)
    ((session.core.account history).filter fun entry => entry.2.executes)
  faults : List.Forall₂ (ShowsFault tracer.console)
    (((session.watched (some tracer)).linesOf history).filter fun line =>
      line.message.level = .error)
    ((session.core.account history).filter fun entry => entry.2.fails)

/-- A session goes through the same with any tracer as without one. A tracer that traces prints one
line for each step that executed an instruction, with the word the machine held before the step, one
for each step that failed, and none for a step that was blocked. -/
theorem tracing_faithful (session : Session) (tracer : Log.Tracer) (history : History) :
    (∀ other, ((session.watched (some tracer)).after history).core =
        ((session.watched other).after history).core ∧
      (session.watched (some tracer)).resultsOf history =
        (session.watched other).resultsOf history ∧
      (session.watched (some tracer)).faultsOf history =
        (session.watched other).faultsOf history) ∧
    (tracer.tracing = true → session.TracedBy tracer history) := by
  constructor
  · intro other
    rw [after_core, after_core, resultsOf_core, resultsOf_core, faultsOf_core, faultsOf_core]
    exact ⟨rfl, rfl, rfl⟩
  · intro tracing
    rcases session.narrates_history tracing history with ⟨last, rfl, counted, narrates⟩
    exact ⟨narrates, counted, printedBy_eq tracing rfl history, narrates.instructions,
      narrates.faults⟩

def selfWriting : History :=
  [(0, .load [0x60, 0x12, 0xA2, 0x04, 0xF0, 0x55, 0x12, 0x06] none), (8, .run 5)]

theorem tracing_faithful_selfWriting :
    ∃ opened, open? { memorySize := 0x208, width := 8, height := 1 } none = .ok opened ∧
      opened.TracedBy { console := { name := "Trace", threshold := .debug } } selfWriting ∧
      (opened.watched (some { console := { name := "Trace", threshold := .debug } })).printedBy
          selfWriting =
        ["[    0.00s][ INFO][Trace] Loaded 8 byte ROM (STANDARD) at 0x200\n",
          "[    1.00s][DEBUG][Trace] 0x200: 6012  LD V0, 0x12\n",
          "[    1.00s][DEBUG][Trace] 0x202: A204  LD I, 0x204\n",
          "[    1.00s][DEBUG][Trace] 0x204: F055  LD [I], V0\n",
          "[    1.00s][DEBUG][Trace] 0x206: 1206  JP 0x206\n",
          "[    1.00s][DEBUG][Trace] 0x206: 1206  JP 0x206\n",
          "[    1.00s][ INFO][Trace] Executed 5 steps (5 total) in 1.00s\n"] := by
  let opened := ofMachine (Machine.ofParts 0 (.initial 0x208) (.blank 8 1) (.empty 16) false) none
  have begun : open? { memorySize := 0x208, width := 8, height := 1 } none = .ok opened := rfl
  refine ⟨opened, begun, (tracing_faithful opened _ _).2 rfl, ?_⟩
  decide +kernel

end Session

end Chip8
