import Chip8.Proofs.Session.Loading
import Chip8.Proofs.Session.Steps

/-! # Sessions and the listings of their images

After a load, whatever came before it, a session runs what the listing of the image says: the
machine fetches and executes the words of the rows, and a tracer writes the same address, word and
statement that the listing has.
-/

namespace Chip8

def ListingRow.traceText (row : ListingRow) : String :=
  "0x" ++ Text.Hex.numeral 3 row.address ++ ": " ++ Text.Hex.numeral 4 row.word.toNat ++ "  " ++
    row.statement

theorem ListingRow.text_executed {row : ListingRow} (code : row.instruction ≠ none) :
    Log.Message.text (.executed row.address row.word.toNat row.instruction) = row.traceText := by
  rcases Option.ne_none_iff_exists'.mp code with ⟨instruction, found⟩
  rw [traceText, statement, found]
  rfl

namespace Session

def watchedAt (session : Session) (address : Int) (tracer : Log.Tracer) : Session :=
  { session with machine := session.machine.pointedAt address, tracer := some tracer }

structure Runs (session : Session) (row : ListingRow) : Prop where
  follows : session.machine.Follows row
  traces : ∀ (watcher : Log.Tracer) (later : Time) (next : Machine), watcher.tracing = true →
    (session.machine.pointedAt row.address).step = .ok next →
    ((session.watchedAt row.address watcher).step later).printed =
      [watcher.console.lineText (later - watcher.console.start) "\x1b[36m" "[DEBUG]" row.traceText]

theorem printed_of_row {session : Session} {row : ListingRow} {watcher : Log.Tracer} {next : Machine}
    (later : Time) (follows : session.machine.Follows row)
    (free : (session.machine.pointedAt row.address).blocked = false)
    (holds : (session.machine.pointedAt row.address).Holds row.word)
    (decoded : row.instruction = Instruction.ofWord? row.word) (tracing : watcher.tracing = true)
    (success : (session.machine.pointedAt row.address).step = .ok next) :
    ((session.watchedAt row.address watcher).step later).printed =
      [watcher.console.lineText (later - watcher.console.start) "\x1b[36m" "[DEBUG]"
        row.traceText] := by
  cases code : row.instruction with
  | none =>
      rw [follows.refuses.mpr code] at success
      cases success
  | some instruction =>
      have place : ((session.watchedAt row.address watcher).machine.pc.toNat : Int) = row.address :=
        follows.place
      have told := step_of_executed (session.watchedAt row.address watcher) rfl tracing free holds
        (decoded.symm.trans code) success later
      rw [place, ← code] at told
      rw [told, Reply.printed_of_watched rfl, List.map_singleton, Log.Console.render_of_debug rfl,
        ListingRow.text_executed (code ▸ Option.some_ne_none instruction)]

/-- After any calls and a load that is accepted, a session runs what the listing of the image says,
row by row. Only the last row of an image of odd size can lie partly outside memory. -/
theorem runs_listing {options : Options} {tracer : Option Log.Tracer} {opened : Session}
    (begun : open? options tracer = .ok opened) (history : History) {now : Time} {call : Call}
    {image : Image} (requested : call.image? = some image)
    (accepted : ((opened.after history).call now call).fault = none) {row : ListingRow}
    (member : row ∈ Listing.rows image.data image.base) :
    (row.address + 1 < options.memorySize ∨
      image.size % 2 = 1 ∧ (Listing.rows image.data image.base).getLast? = some row) ∧
    (row.address + 1 < options.memorySize →
      ((opened.after history).call now call).session.Runs row) := by
  rcases load_of_accepted begun history requested accepted with ⟨fresh, built, loaded⟩
  constructor
  · by_cases within : row.address + 1 < options.memorySize
    · exact .inl within
    · exact .inr (Machine.last_of_past built loaded member (Int.not_lt.mp within))
  · intro within
    have follows := Machine.follows_of_load built loaded member within
    have holds := (Machine.holds_of_load built loaded member within).2
    refine ⟨follows, ?_⟩
    intro watcher later next tracing success
    exact printed_of_row later follows (Machine.free_of_load built loaded row.address) holds
      (Listing.instruction_of_mem_rows member) tracing success

theorem runs_listing_of_odd_image :
    ∃ opened, open? { memorySize := 0x204, width := 8, height := 1 } none = .ok opened ∧
      ((opened.after [(0, .setKeys 1)]).call 1 (.load [0x60, 0x07, 0xF1] none)).session.Runs
        ⟨0x200, 0x6007, some ⟨.setByte, (0, 7)⟩⟩ ∧
      ((opened.after [(0, .setKeys 1)]).call 1 (.load [0x60, 0x07, 0xF1] none)).session.Runs
        ⟨0x202, 0xF100, none⟩ ∧
      ((((opened.after [(0, .setKeys 1)]).call 1
          (.load [0x60, 0x07, 0xF1] none)).session.watchedAt 0x200
            { console := { name := "Trace", threshold := .debug } }).step 8).printed =
        ["[    1.00s][DEBUG][Trace] 0x200: 6007  LD V0, 0x07\n"] := by
  let opened := ofMachine (Machine.ofParts 0 (.initial 0x204) (.blank 8 1) (.empty 16) false) none
  have begun : open? { memorySize := 0x204, width := 8, height := 1 } none = .ok opened := rfl
  have requested : (Call.load [0x60, 0x07, 0xF1] none).image? =
      some ⟨[0x60, 0x07, 0xF1], .standard⟩ := rfl
  have accepted : ((opened.after [(0, .setKeys 1)]).call 1
      (.load [0x60, 0x07, 0xF1] none)).fault = none := by
    decide +kernel
  have rows : Listing.rows [0x60, 0x07, 0xF1] 0x200 =
      [⟨0x200, 0x6007, some ⟨.setByte, (0, 7)⟩⟩, ⟨0x202, 0xF100, none⟩] := rfl
  refine ⟨opened, begun, ?_, ?_, ?_⟩
  · exact (runs_listing begun _ requested accepted (rows ▸ .head _)).2 (by decide)
  · exact (runs_listing begun _ requested accepted (rows ▸ .tail _ (.head _))).2 (by decide)
  · decide +kernel

end Session

end Chip8
