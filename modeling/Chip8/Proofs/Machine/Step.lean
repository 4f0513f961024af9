import Chip8.Machine.Step
import Chip8.Proofs.Instruction.Encoding

/-! # What a step does

A step of a machine that is not blocked executes the instruction of the word at the program
counter, on the machine with the program counter past it. The word is described here by the two
bytes in memory, not by the way it is fetched.
-/

namespace Chip8

theorem map_eq_ok_iff {ε α β : Type} {result : Except ε α} {transform : α → β} {value : β} :
    result.map transform = .ok value ↔ ∃ source, result = .ok source ∧ transform source = value := by
  cases result with
  | error error => simp [Except.map]
  | ok source => simp [Except.map]

theorem map_eq_error_iff {ε α β : Type} {result : Except ε α} {transform : α → β} {error : ε} :
    result.map transform = .error error ↔ result = .error error := by
  cases result with
  | error cause => simp [Except.map]
  | ok source => simp [Except.map]

namespace Machine

def Holds (machine : Machine) (word : Word) : Prop :=
  machine.memory.byte? machine.pc.toNat = some word.high ∧
    machine.memory.byte? (machine.pc.toNat + 1) = some word.low

def Points (machine : Machine) (instruction : Instruction) : Prop :=
  ∃ word, machine.Holds word ∧ Instruction.ofWord? word = some instruction

def advanced (machine : Machine) : Machine := { machine with pc := machine.pc + 2 }

/-! ## Fetching -/

theorem Holds.within {machine : Machine} {word : Word} (holds : machine.Holds word) :
    machine.pc.toNat + 1 < machine.memory.size := by
  rcases holds with ⟨_, low⟩
  exact (Array.getElem?_eq_some_iff.mp low).1

theorem Holds.unique {machine : Machine} {left right : Word} (holdsLeft : machine.Holds left)
    (holdsRight : machine.Holds right) : left = right := by
  have high : left.high = right.high :=
    Option.some.inj (holdsLeft.1.symm.trans holdsRight.1)
  have low : left.low = right.low :=
    Option.some.inj (holdsLeft.2.symm.trans holdsRight.2)
  rw [← Word.ofBytes_high_low left, ← Word.ofBytes_high_low right, high, low]

theorem Points.holds {machine : Machine} {instruction : Instruction}
    (points : machine.Points instruction) : machine.Holds instruction.encode := by
  rcases points with ⟨word, holds, decoded⟩
  rw [Instruction.encode_of_ofWord? decoded]
  exact holds

theorem Holds.points {machine : Machine} {instruction : Instruction}
    (holds : machine.Holds instruction.encode) (proper : instruction.opcode ≠ .sys) :
    machine.Points instruction :=
  ⟨instruction.encode, holds, Instruction.ofWord?_encode proper⟩

theorem Points.unique {machine : Machine} {left right : Instruction}
    (pointsLeft : machine.Points left) (pointsRight : machine.Points right) : left = right := by
  rcases pointsLeft with ⟨word, holds, decoded⟩
  rcases pointsRight with ⟨other, otherHolds, otherDecoded⟩
  rw [otherHolds.unique holds, decoded] at otherDecoded
  exact Option.some.inj otherDecoded

theorem exists_holds {machine : Machine}
    (within : machine.pc.toNat + 1 < machine.memory.size) : ∃ word, machine.Holds word := by
  let bytes := machine.memory.bytes
  have before : machine.pc.toNat < bytes.size := Nat.lt_of_succ_lt within
  refine ⟨.ofBytes bytes[machine.pc.toNat] bytes[machine.pc.toNat + 1], ?_, ?_⟩
  · rw [Word.high_ofBytes]
    exact Array.getElem?_eq_getElem before
  · rw [Word.low_ofBytes]
    exact Array.getElem?_eq_getElem within

theorem fetchWord_of_holds {machine : Machine} {word : Word} (holds : machine.Holds word) :
    machine.memory.fetchWord machine.pc.toNat = .ok word := by
  have within := holds.within
  rcases holds with ⟨high, low⟩
  have inside : ¬((machine.pc.toNat : Int) < 0 ∨
      (machine.pc.toNat : Int) + 1 ≥ machine.memory.size) := by omega
  rw [Memory.fetchWord, if_neg inside]
  simp only [Int.toNat_natCast, high, low, Option.getD_some, Word.ofBytes_high_low]

theorem fetch_of_holds {machine : Machine} {word : Word} (holds : machine.Holds word) :
    machine.fetch = .ok (word, machine.advanced) := by
  rw [fetch, fetchWord_of_holds holds]
  rfl

theorem fetch_of_past {machine : Machine}
    (past : machine.memory.size ≤ machine.pc.toNat + 1) :
    machine.fetch = .error (.badProgramCounter machine.pc.toNat) := by
  have outside : (machine.pc.toNat : Int) < 0 ∨
      (machine.pc.toNat : Int) + 1 ≥ machine.memory.size := by omega
  rw [fetch, Memory.fetchWord, if_pos outside]

theorem holds_of_fetch {machine fetched : Machine} {word : Word}
    (success : machine.fetch = .ok (word, fetched)) :
    machine.Holds word ∧ fetched = machine.advanced := by
  by_cases within : machine.pc.toNat + 1 < machine.memory.size
  · rcases exists_holds within with ⟨held, holds⟩
    rw [fetch_of_holds holds] at success
    cases success
    exact ⟨holds, rfl⟩
  · rw [fetch_of_past (Nat.le_of_not_lt within)] at success
    cases success

/-! ## Stepping -/

theorem ofNumber?_toNat (word : Word) :
    Instruction.ofNumber? word.toNat = Instruction.ofWord? word := by
  have small : (0 : Int) ≤ word.toNat ∧ (word.toNat : Int) < 65536 := by
    have bound := word.toNat_lt
    omega
  rw [Instruction.ofNumber?, if_pos small, Int.toNat_natCast, UInt16.ofNat_toNat]

theorem decode_of_ofWord? {word : Word} {instruction : Instruction}
    (decoded : Instruction.ofWord? word = some instruction) :
    Instruction.decode word.toNat = .ok instruction := by
  rw [Instruction.decode, ofNumber?_toNat, decoded]

theorem decode_of_foreign {word : Word} (foreign : Instruction.ofWord? word = none) :
    Instruction.decode word.toNat = .error (.invalidOpcode word.toNat) := by
  rw [Instruction.decode, ofNumber?_toNat, foreign]

theorem step_of_blocked {machine : Machine} (blocked : machine.blocked = true) :
    machine.step = .ok machine := by
  rw [step, if_pos blocked]

private theorem step_of_holds {machine : Machine} {word : Word} (free : machine.blocked = false)
    (holds : machine.Holds word) : machine.step = machine.advanced.executeNumber word.toNat := by
  rw [step]
  rw [fetch_of_holds holds, if_neg (by simp [free])]

theorem step_of_points {machine : Machine} {instruction : Instruction}
    (free : machine.blocked = false) (points : machine.Points instruction) :
    machine.step = machine.advanced.execute instruction := by
  rcases points with ⟨word, holds, decoded⟩
  rw [step_of_holds free holds, executeNumber, decode_of_ofWord? decoded]

theorem step_of_foreign {machine : Machine} {word : Word} (free : machine.blocked = false)
    (holds : machine.Holds word) (foreign : Instruction.ofWord? word = none) :
    machine.step = .error (.invalidOpcode word.toNat) := by
  rw [step_of_holds free holds, executeNumber, decode_of_foreign foreign]

theorem step_of_past {machine : Machine} (free : machine.blocked = false)
    (past : machine.memory.size ≤ machine.pc.toNat + 1) :
    machine.step = .error (.badProgramCounter machine.pc.toNat) := by
  rw [step]
  rw [fetch_of_past past, if_neg (by simp [free])]

/-- A machine points at an instruction, at a word that is none, or past the end of memory. -/
theorem fetch_cases (machine : Machine) :
    machine.memory.size ≤ machine.pc.toNat + 1 ∨
      (∃ word, machine.Holds word ∧ Instruction.ofWord? word = none) ∨
      ∃ instruction, machine.Points instruction := by
  by_cases within : machine.pc.toNat + 1 < machine.memory.size
  · rcases exists_holds within with ⟨word, holds⟩
    cases decoded : Instruction.ofWord? word with
    | none => exact .inr (.inl ⟨word, holds, decoded⟩)
    | some instruction => exact .inr (.inr ⟨instruction, word, holds, decoded⟩)
  · exact .inl (Nat.le_of_not_lt within)

theorem step_cases {machine next : Machine} (success : machine.step = .ok next) :
    machine.blocked = true ∧ next = machine ∨
      machine.blocked = false ∧
        ∃ instruction, machine.Points instruction ∧
          machine.advanced.execute instruction = .ok next := by
  cases blocked : machine.blocked with
  | true =>
      rw [step_of_blocked blocked] at success
      exact .inl ⟨rfl, (Except.ok.inj success).symm⟩
  | false =>
      refine .inr ⟨rfl, ?_⟩
      rcases machine.fetch_cases with past | ⟨word, holds, foreign⟩ | ⟨instruction, points⟩
      · rw [step_of_past blocked past] at success
        cases success
      · rw [step_of_foreign blocked holds foreign] at success
        cases success
      · rw [step_of_points blocked points] at success
        exact ⟨instruction, points, success⟩

end Machine

end Chip8
