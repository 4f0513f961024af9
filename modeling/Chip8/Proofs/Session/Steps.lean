import Chip8.Proofs.Session.Calls

/-! # What a step logs

A step of a blocked session logs nothing. Any other step that succeeds is told to a tracer that
traces, with the word that the machine held before the step; one that fails is reported as the end
of the run.
-/

namespace Chip8

namespace Log.Console

variable {console : Console} {line : Line}

theorem log_of_debug (lightest : console.enabled .debug = true) (now : Time) (message : Message) :
    console.log now message = [{ elapsed := now - console.start, message }] := by
  have none : console.threshold.weight ≤ 0 := of_decide_eq_true lightest
  have enabled : console.enabled message.level = true :=
    decide_eq_true (none.trans (Nat.zero_le _))
  rw [log, if_pos enabled]

def lineText (console : Console) (elapsed : Time) (color tag text : String) : String :=
  (if console.stamped then
      "[" ++ String.ofList ((Text.Seconds.text elapsed).toList.leftpad 8 ' ') ++ "s]"
    else "") ++
    (if console.colored then color ++ tag ++ "\x1b[0m" else tag) ++ "[" ++ console.name ++ "] " ++
    text ++ "\n"

private theorem render_eq_lineText (console : Console) (line : Line) :
    console.render line =
      console.lineText line.elapsed line.message.level.color
        ("[" ++ alignRight 5 line.message.level.name ++ "]") line.message.text :=
  rfl

theorem render_of_debug (level : line.message.level = .debug) :
    console.render line =
      console.lineText line.elapsed "\x1b[36m" "[DEBUG]" line.message.text := by
  have aligned : alignRight 5 "DEBUG" = "DEBUG" := by decide
  rw [render_eq_lineText, level, Level.name, aligned]
  rfl

theorem render_of_error (level : line.message.level = .error) :
    console.render line =
      console.lineText line.elapsed "\x1b[31m" "[ERROR]" line.message.text := by
  have aligned : alignRight 5 "ERROR" = "ERROR" := by decide
  rw [render_eq_lineText, level, Level.name, aligned]
  rfl

end Log.Console

namespace Session

variable {session : Session}

theorem Reply.printed_of_watched {reply : Reply} {tracer : Log.Tracer}
    (watched : reply.session.tracer = some tracer) :
    reply.printed = reply.lines.map tracer.console.render := by
  rw [printed, watched]

/-! ## Steps that are blocked -/

theorem step_of_blocked (blocked : session.machine.blocked = true) (now : Time) :
    session.step now = { session } :=
  step_of_traced (Machine.step_of_blocked blocked) (trace_of_blocked blocked now)

/-! ## Steps that are taken -/

theorem step_of_executed (session : Session) {tracer : Log.Tracer} {word : Word}
    {instruction : Instruction} {next : Machine} (watched : session.tracer = some tracer)
    (tracing : tracer.tracing = true) (free : session.machine.blocked = false)
    (holds : session.machine.Holds word) (decoded : Instruction.ofWord? word = some instruction)
    (success : session.machine.step = .ok next) (now : Time) :
    session.step now =
      { session := { session with
          machine := next
          tracer := some { tracer with count := tracer.count + 1 } }
        lines := [{
          elapsed := now - tracer.console.start
          message := .executed session.machine.pc.toNat word.toNat (some instruction) }] } := by
  apply step_of_traced success
  rw [trace, watched, lookUp_of_holds holds decoded]
  simp only [tracing, free, Bool.not_false, Bool.and_self, if_pos, Log.Tracer.executed,
    Log.Console.log_of_debug tracing]
  rfl

theorem step_of_untraced {next : Machine} (success : session.machine.step = .ok next)
    (untraced : ∀ tracer, session.tracer = some tracer → tracer.tracing = false) (now : Time) :
    session.step now = { session := { session with machine := next } } := by
  have silent : session.trace now = .ok (session.tracer, []) := by
    rw [trace]
    cases watched : session.tracer with
    | none => rfl
    | some tracer =>
        have off := untraced tracer watched
        simp [off]
  exact step_of_traced success silent

theorem step_of_fault {fault : Fault} (failure : session.machine.step = .error fault)
    (now : Time) :
    session.step now =
      { session
        lines := session.report fun tracer =>
          tracer.halted now session.machine.pc.toNat fault.message
        fault := some fault } := by
  rw [step, failure]

end Session

end Chip8
