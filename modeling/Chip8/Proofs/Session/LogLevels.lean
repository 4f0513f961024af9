import Chip8.Proofs.Session.Tracing

/-! # Logs at different levels

Two sessions whose consoles differ in their level alone go through the same, and the one with the
higher level logs the lines of the other that its level admits. Their counts differ: only a tracer
that traces is told of instructions, so at the higher levels the count stands still, and the lines
that report it repeat the count that the tracer began with.
-/

namespace Chip8

namespace Log

def Level.admits (level : Level) (line : Line) : Bool :=
  level.weight ≤ line.message.level.weight

theorem Level.admits_iff {level : Level} {line : Line} :
    level.admits line = true ↔ level.weight ≤ line.message.level.weight :=
  decide_eq_true_iff

def Message.withCount (count : Nat) : Message → Message
  | .halted pc _ reason => .halted pc count reason
  | .finished steps _ elapsed => .finished steps count elapsed
  | message => message

def Line.withCount (count : Nat) (line : Line) : Line :=
  { line with message := line.message.withCount count }

theorem Message.level_withCount (count : Nat) (message : Message) :
    (message.withCount count).level = message.level := by
  cases message <;> rfl

theorem Level.not_admits_executed {level : Level} (higher : level ≠ .debug)
    (elapsed : Time) (pc word : Int) (instruction : Option Instruction) :
    level.admits ⟨elapsed, .executed pc word instruction⟩ = false := by
  cases level with
  | debug => exact absurd rfl higher
  | info | error => rfl

/-- The lines that a level admits, all with the same count. -/
def frozen (level : Level) (count : Nat) (lines : List Line) : List Line :=
  (lines.filter level.admits).map (Line.withCount count)

theorem frozen_append (level : Level) (count : Nat) (first second : List Line) :
    frozen level count (first ++ second) =
      frozen level count first ++ frozen level count second := by
  rw [frozen, List.filter_append, List.map_append]
  rfl

theorem frozen_eq_filter_iff {level : Level} {count : Nat} {lines : List Line} :
    frozen level count lines = lines.filter level.admits ↔
      ∀ line ∈ lines, level.admits line = true → line.withCount count = line := by
  conv_lhs => rhs; rw [← List.map_id (lines.filter level.admits)]
  rw [frozen, List.map_inj_left]
  simp only [List.mem_filter, and_imp, id]

def Tracer.atLevel (tracer : Tracer) (level : Level) : Tracer :=
  { tracer with console := { tracer.console with threshold := level } }

theorem Tracer.log_atLevel (tracer : Tracer) (level : Level) (now : Time) (message : Message) :
    (tracer.atLevel level).console.log now message =
      [⟨now - tracer.console.start, message⟩].filter level.admits := by
  rw [List.filter_singleton, Console.log]
  exact (Bool.cond_eq_ite _ _ _).symm

theorem Tracer.log_withCount (tracer : Tracer) (level : Level) (count : Nat) (now : Time)
    (message : Message) :
    (tracer.atLevel level).console.log now (message.withCount count) =
      frozen level count [⟨now - tracer.console.start, message⟩] := by
  rw [tracer.log_atLevel, frozen, List.filter_singleton, List.filter_singleton, Level.admits,
    Level.admits, Message.level_withCount]
  cases decide (level.weight ≤ message.level.weight) with
  | true => rfl
  | false => rfl

end Log

namespace Session

open Log (Level Tracer Message)

/-- The sessions differ in their tracers alone. The one of the second traces, the one of the first
has another level and another count. -/
structure Muted (level : Level) (count : Nat) (quiet full : Session) : Prop where
  core : quiet.core = full.core
  tracers : ∃ tracer, full.tracer = some tracer ∧ tracer.tracing = true ∧
    quiet.tracer = some { tracer.atLevel level with count }

structure MutedReply (level : Level) (count : Nat) (quiet full : Reply) : Prop where
  session : Muted level count quiet.session full.session
  fault : quiet.fault = full.fault
  lines : quiet.lines = Log.frozen level count full.lines

variable {level : Level} {count : Nat} {quiet full : Session}

theorem Muted.machine (muted : Muted level count quiet full) : quiet.machine = full.machine :=
  congrArg Core.machine muted.core

theorem Muted.fresh (muted : Muted level count quiet full) : quiet.fresh = full.fresh :=
  congrArg Core.fresh muted.core

theorem Muted.report (muted : Muted level count quiet full) (now : Time)
    (message : Time → Nat → Message)
    (counts : ∀ start other, (message start other).withCount count = message start count) :
    quiet.report (fun tracer =>
        tracer.console.log now (message tracer.console.start tracer.count)) =
      Log.frozen level count (full.report fun tracer =>
        tracer.console.log now (message tracer.console.start tracer.count)) := by
  rcases muted.tracers with ⟨tracer, watched, tracing, quietly⟩
  rw [Session.report, Session.report, watched, quietly]
  simp only [Log.Console.log_of_debug tracing]
  rw [← tracer.log_withCount, counts]
  rfl

theorem Muted.untraced (higher : level ≠ .debug) (muted : Muted level count quiet full)
    (tracer : Tracer) (watched : quiet.tracer = some tracer) : tracer.tracing = false := by
  rcases muted.tracers with ⟨_, _, _, quietly⟩
  cases Option.some.inj (watched.symm.trans quietly)
  cases level with
  | debug => exact absurd rfl higher
  | info | error => rfl

theorem Muted.withMachine (muted : Muted level count quiet full) (machine : Machine) :
    Muted level count { quiet with machine } { full with machine } :=
  ⟨congrArg (fun core => { core with machine }) muted.core, muted.tracers⟩

theorem Muted.silent (muted : Muted level count quiet full) (fault : Option Fault) :
    MutedReply level count { session := quiet, fault } { session := full, fault } :=
  ⟨muted, rfl, rfl⟩

theorem Muted.loadImage (muted : Muted level count quiet full) (now : Time) (image : Image) :
    MutedReply level count (quiet.loadImage now image) (full.loadImage now image) := by
  rw [Session.loadImage, Session.loadImage, muted.fresh]
  cases full.fresh.load image with
  | error fault => exact muted.silent _
  | ok machine =>
      exact ⟨⟨rfl, muted.tracers⟩, rfl, muted.report now
        (fun _ _ => .loaded image.size image.base image.variant.name) fun _ _ => rfl⟩

section

variable (higher : level ≠ .debug)

include higher

theorem Muted.step (muted : Muted level count quiet full) (now : Time) :
    MutedReply level count (quiet.step now) (full.step now) := by
  have same := muted.machine
  cases outcome : full.machine.step with
  | error fault =>
      rw [step_of_fault outcome, step_of_fault (same ▸ outcome), same]
      refine ⟨muted, rfl, ?_⟩
      exact muted.report now (fun _ => (.halted full.machine.pc.toNat · fault.message))
        fun _ _ => rfl
  | ok next =>
      rcases Machine.step_cases outcome with ⟨blocked, _⟩ | ⟨free, instruction, points, _⟩
      · rw [step_of_blocked blocked, step_of_blocked (same ▸ blocked)]
        exact muted.silent none
      · rcases points with ⟨word, holds, decoded⟩
        rcases muted.tracers with ⟨tracer, watched, tracing, quietly⟩
        rw [step_of_executed full watched tracing free holds decoded outcome,
          step_of_untraced (same ▸ outcome) (muted.untraced higher)]
        refine ⟨⟨(muted.withMachine next).core, _, rfl, tracing, quietly⟩, rfl, ?_⟩
        rw [Log.frozen, List.filter_singleton, Level.not_admits_executed higher]
        rfl

theorem Muted.steps (muted : Muted level count quiet full) (now : Time) (steps : Nat) :
    MutedReply level count (quiet.steps now steps) (full.steps now steps) := by
  induction steps generalizing quiet full with
  | zero => exact muted.silent none
  | succ steps induction =>
      have first := muted.step higher now
      rw [Session.steps, Session.steps, first.fault]
      cases (full.step now).fault with
      | some fault => exact first
      | none =>
          have rest := induction first.session
          refine ⟨rest.session, rest.fault, ?_⟩
          simp only [first.lines, rest.lines, Log.frozen_append]

theorem Muted.run (muted : Muted level count quiet full) (now : Time) (steps : Int) :
    MutedReply level count (quiet.run now steps) (full.run now steps) := by
  have taken := muted.steps higher now steps.toNat
  rw [Session.run, Session.run, taken.fault]
  cases outcome : (full.steps now steps.toNat).fault with
  | some fault => exact taken
  | none =>
      have finished := taken.session.report now
        (fun start count => .finished steps count (now - start)) fun _ _ => rfl
      refine ⟨taken.session, rfl, ?_⟩
      simp only [taken.lines, Log.frozen_append]
      exact congrArg (_ ++ ·) finished

theorem Muted.call (muted : Muted level count quiet full) (now : Time) (call : Call) :
    MutedReply level count (quiet.call now call) (full.call now call) := by
  cases call with
  | load data variant =>
      rw [Session.call, Session.call, load, load]
      cases Image.ofBytes data variant with
      | error fault => exact muted.silent _
      | ok image => exact muted.loadImage now image
  | loadImage image => exact muted.loadImage now image
  | step => exact muted.step higher now
  | run steps => exact muted.run higher now steps
  | tick =>
      rw [Session.call, Session.call, tick, tick, muted.machine]
      exact (muted.withMachine _).silent none
  | setKeys bitmap =>
      rw [Session.call, Session.call, setKeys, setKeys, muted.machine]
      exact (muted.withMachine _).silent none

theorem Muted.history (muted : Muted level count quiet full) (history : History) :
    quiet.linesOf history = Log.frozen level count (full.linesOf history) := by
  induction history generalizing quiet full with
  | nil => rfl
  | cons entry rest induction =>
      rcases entry with ⟨now, call⟩
      have first := muted.call higher now call
      have later := induction first.session
      rw [linesOf] at later ⊢
      rw [replies, List.flatMap_cons, first.lines, later, ← Log.frozen_append]
      rfl

end

/-! ## Reports of the count -/

/-- The episode ends with a report of the count that the level admits. -/
def Episode.reports (level : Level) : Episode → Bool
  | .ran _ => level.weight ≤ Level.info.weight
  | episode => episode.fails

section

variable {start now : Time} {episode : Episode} {first last : Nat} {lines : List Log.Line}
  {episodes : List (Time × Episode)}

theorem Tells.withCount_eq_iff (tells : Tells start now count episode lines last) :
    (∀ line ∈ lines, level.admits line = true → line.withCount first = line) ↔
      (episode.reports level = true → count = first) := by
  cases tells with
  | loaded => simp [Episode.reports, Episode.fails, Log.Line.withCount, Log.Message.withCount]
  | blocked blocked => simp [Episode.reports, (Episode.of_blocked blocked).2]
  | executed free success =>
      simp [Episode.reports, (Episode.of_ok free success).2, Log.Line.withCount,
        Log.Message.withCount]
  | halted failure =>
      have admitted : level.weight ≤ Level.error.weight := by cases level <;> decide
      simp [Episode.reports, (Episode.of_error failure).2, Log.Line.withCount,
        Log.Message.withCount, Level.admits_iff, Message.level, admitted, @eq_comm Nat first]
  | ran =>
      simp [Episode.reports, Log.Line.withCount, Log.Message.withCount, Level.admits_iff,
        Message.level, @eq_comm Nat first]

/-- Lines that a level admits all give the first count just if no report of that level comes behind
an instruction that was executed. -/
theorem Narrates.withCount_eq_iff (narrates : Narrates start count episodes lines last)
    (begun : first ≤ count) :
    (∀ line ∈ lines, level.admits line = true → line.withCount first = line) ↔
      (∀ entry ∈ episodes, entry.2.reports level = true → count = first) ∧
        episodes.Pairwise fun earlier later =>
          later.2.reports level = true → earlier.2.executes = false := by
  induction narrates with
  | nil => simp
  | @cons now episode count middle last episodes lines later head rest induction =>
      have counted := head.last_eq
      rw [List.forall_mem_append, head.withCount_eq_iff, induction (by omega),
        List.forall_mem_cons, List.pairwise_cons]
      -- The count never goes down, so it is the first one again only if nothing was executed.
      have settled (reported : Prop) : (reported → middle = first) ↔
          (reported → count = first) ∧ (reported → episode.executes = false) := by
        cases executed : episode.executes with
        | true =>
            rw [executed, cond_true] at counted
            have past : middle ≠ first := by omega
            simp only [past]
            tauto
        | false =>
            rw [executed, cond_false] at counted
            simp [counted]
      simp only [settled, forall_and]
      tauto

end

/-- The log at a higher level is what that level admits of the log of all lines, but for the counts,
which are those of the log of all lines only where no instruction came before. -/
theorem lines_atLevel (session : Session) (tracer : Tracer) (higher : level ≠ .debug)
    (history : History) :
    let quiet := (session.watched (some (tracer.atLevel level))).linesOf history
    let full := (session.watched (some (tracer.atLevel .debug))).linesOf history
    quiet = Log.frozen level tracer.count full ∧
      (quiet = full.filter level.admits ↔
        (session.core.account history).Pairwise fun earlier later =>
          later.2.reports level = true → earlier.2.executes = false) ∧
      Narrates tracer.console.start tracer.count (session.core.account history) full
        (tracer.count + (session.core.account history).countP fun entry => entry.2.executes) ∧
      ∀ line, (tracer.atLevel level).console.render line =
        (tracer.atLevel .debug).console.render line := by
  intro quiet full
  have muted : Muted level tracer.count (session.watched (some (tracer.atLevel level)))
      (session.watched (some (tracer.atLevel .debug))) := ⟨rfl, _, rfl, rfl, rfl⟩
  have traced : (tracer.atLevel .debug).tracing = true := rfl
  rcases session.narrates_history traced history with ⟨last, rfl, _, narrates⟩
  have lines := muted.history higher history
  refine ⟨lines, ?_, narrates, fun line => rfl⟩
  rw [show quiet = _ from lines, Log.frozen_eq_filter_iff]
  exact (narrates.withCount_eq_iff (Nat.le_refl _)).trans (and_iff_right fun _ _ _ => rfl)

def oneInstruction : History := [(0, .load [0x60, 0x01] none), (8, .run 1)]

theorem lines_atLevel_oneInstruction :
    ∃ opened, open? { memorySize := 0x204 } none = .ok opened ∧
      (opened.watched (some { console := { name := "Run" } })).linesOf oneInstruction =
        Log.frozen .info 0
          ((opened.watched (some { console := { name := "Run", threshold := .debug } })).linesOf
            oneInstruction) ∧
      Log.frozen .info 0
          ((opened.watched (some { console := { name := "Run", threshold := .debug } })).linesOf
            oneInstruction) =
        [⟨0, .loaded 2 0x200 "STANDARD"⟩, ⟨8, .finished 1 0 8⟩] := by
  let opened := ofMachine (Machine.ofParts 0 (.initial 0x204) (.blank 64 32) (.empty 16) false) none
  have begun : open? { memorySize := 0x204 } none = .ok opened := rfl
  have higher : Level.info ≠ .debug := by decide
  have lines := (lines_atLevel opened { console := { name := "Run" } } higher oneInstruction).1
  refine ⟨opened, begun, lines, ?_⟩
  decide +kernel

/-- The levels do more than filter: of the one instruction that the run executed, only the log that
lists it knows. -/
theorem runReport_depends_on_level :
    ∃ opened, open? { memorySize := 0x204 } none = .ok opened ∧
      let quiet := opened.watched (some { console := { name := "Run" } })
      let full := opened.watched (some { console := { name := "Run", threshold := .debug } })
      quiet.linesOf oneInstruction = [⟨0, .loaded 2 0x200 "STANDARD"⟩, ⟨8, .finished 1 0 8⟩] ∧
      (full.linesOf oneInstruction).filter (Level.admits .info) =
        [⟨0, .loaded 2 0x200 "STANDARD"⟩, ⟨8, .finished 1 1 8⟩] ∧
      quiet.linesOf oneInstruction ≠
        (full.linesOf oneInstruction).filter (Level.admits .info) ∧
      ((opened.core.account oneInstruction).countP fun entry => entry.2.executes) = 1 := by
  refine ⟨ofMachine (Machine.ofParts 0 (.initial 0x204) (.blank 64 32) (.empty 16) false) none,
    rfl, ?_⟩
  decide +kernel

end Session

end Chip8
