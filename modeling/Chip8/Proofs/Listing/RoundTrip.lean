import Chip8.Image
import Chip8.Listing
import Chip8.Proofs.Instruction.Grammar

/-! # Programs, images and listings

A listing keeps every byte of an image, and an image keeps every instruction of a program up to
`Instruction.canonical`. So a listing without data can be assembled again to its image, and two
programs have the same image exactly when their instructions are read alike.
-/

namespace Chip8

namespace Listing

/-! ## Words and bytes -/

def completed (data : List UInt8) : List UInt8 := data ++ List.replicate (data.length % 2) 0

theorem bytes_words : (data : List UInt8) → (words data).flatMap Word.bytes = completed data
  | [] => rfl
  | [_] => by simp [words, Word.bytes, completed]
  | high :: low :: rest => by
      have tail := bytes_words rest
      have parity : (high :: low :: rest).length % 2 = rest.length % 2 := Nat.add_mod_right _ 2
      rw [words, List.flatMap_cons, tail, completed, completed, parity, Word.bytes,
        Word.high_ofBytes, Word.low_ofBytes]
      rfl

theorem getElem?_bytes {program : List Word} {index : Nat} {word : Word}
    (found : program[index]? = some word) :
    (program.flatMap Word.bytes)[2 * index]? = some word.high ∧
      (program.flatMap Word.bytes)[2 * index + 1]? = some word.low := by
  induction program generalizing index with
  | nil => cases found
  | cons first rest induction =>
      cases index with
      | zero =>
          cases found
          exact ⟨rfl, rfl⟩
      | succ index => exact induction found

/-! ## Rows -/

theorem getElem?_rowsOfWords (base : Int) (program : List Word) (index : Nat) :
    (rowsOfWords base program)[index]? =
      program[index]?.map (ListingRow.ofWord (base + 2 * index)) := by
  induction program generalizing base index with
  | nil => rfl
  | cons word rest induction =>
      cases index with
      | zero =>
          have start : base + 2 * (0 : Nat) = base := by omega
          rw [start]
          rfl
      | succ index =>
          have place : base + 2 * (index + 1 : Nat) = base + 2 + 2 * index := by omega
          rw [place]
          exact induction (base + 2) index

theorem getElem?_rows (data : List UInt8) (base : Int) (index : Nat) :
    (rows data base)[index]? = (words data)[index]?.map (ListingRow.ofWord (base + 2 * index)) :=
  getElem?_rowsOfWords base (words data) index

theorem map_rowsOfWords {α : Type} {view : ListingRow → α} {ofWord : Word → α}
    (reads : ∀ address word, view (.ofWord address word) = ofWord word) (base : Int)
    (program : List Word) : (rowsOfWords base program).map view = program.map ofWord := by
  induction program generalizing base with
  | nil => rfl
  | cons word rest induction =>
      rw [rowsOfWords, List.map_cons, List.map_cons, induction, reads]

theorem words_rows (data : List UInt8) (base : Int) :
    (rows data base).map (·.word) = words data :=
  (map_rowsOfWords (fun _ _ => rfl) base (words data)).trans (List.map_id _)

theorem length_rows (data : List UInt8) (base : Int) :
    (rows data base).length = (data.length + 1) / 2 := by
  rw [← length_words, ← words_rows data base, List.length_map]

theorem instructions_rows (data : List UInt8) (base : Int) :
    (rows data base).map (·.instruction) = (words data).map Instruction.ofWord? :=
  map_rowsOfWords (fun _ _ => rfl) base (words data)

theorem bytes_rows (data : List UInt8) (base : Int) :
    (rows data base).flatMap (·.word.bytes) = completed data := by
  rw [← bytes_words, ← words_rows data base, List.flatMap_map]

theorem instruction_of_mem_rows {data : List UInt8} {base : Int} {row : ListingRow}
    (member : row ∈ rows data base) : row.instruction = Instruction.ofWord? row.word := by
  rcases List.mem_iff_getElem?.mp member with ⟨index, found⟩
  rw [getElem?_rows] at found
  rcases Option.map_eq_some_iff.mp found with ⟨word, _, rfl⟩
  rfl

theorem exists_place_of_mem_rows {data : List UInt8} {base : Int} {row : ListingRow}
    (member : row ∈ rows data base) :
    ∃ index : Nat, (rows data base)[index]? = some row ∧ row.address = base + 2 * index ∧
      2 * index < data.length ∧ (completed data)[2 * index]? = some row.word.high ∧
      (completed data)[2 * index + 1]? = some row.word.low := by
  rcases List.mem_iff_getElem?.mp member with ⟨index, found⟩
  have listed := found
  rw [getElem?_rows] at listed
  rcases Option.map_eq_some_iff.mp listed with ⟨word, foundWord, rfl⟩
  rcases getElem?_bytes foundWord with ⟨high, low⟩
  rw [bytes_words] at high low
  have before := (List.getElem?_eq_some_iff.mp foundWord).1
  rw [length_words] at before
  exact ⟨index, found, rfl, by omega, high, low⟩

end Listing

/-! ## Assembling -/

namespace Image

theorem words_assemble (program : List Instruction) :
    Listing.words (assemble program) = program.map Instruction.encode := by
  rw [← Listing.words_flatMap_bytes (program.map Instruction.encode), List.flatMap_map]
  rfl

theorem length_assemble (program : List Instruction) :
    (assemble program).length = 2 * program.length := by
  induction program with
  | nil => rfl
  | cons instruction rest induction =>
      have first : instruction.encode.bytes.length = 2 := rfl
      rw [assemble] at induction ⊢
      rw [List.flatMap_cons, List.length_append, induction, first, List.length_cons]
      omega

theorem assemble_eq_iff (left right : List Instruction) :
    assemble left = assemble right ↔
      left.map Instruction.canonical = right.map Instruction.canonical := by
  constructor
  · intro equal
    -- What is read from the words of a program is its canonical form, so the bytes determine it.
    have same := congrArg (List.map Instruction.ofWord?) (congrArg Listing.words equal)
    rw [words_assemble, words_assemble, List.map_map, List.map_map] at same
    have read : Instruction.ofWord? ∘ Instruction.encode = some ∘ Instruction.canonical :=
      funext Instruction.ofWord?_encode_eq
    rw [read, ← List.map_map, ← List.map_map] at same
    exact (List.map_inj_right fun _ _ => Option.some.inj).mp same
  · intro equal
    have same := congrArg (List.map Instruction.encode) equal
    rw [List.map_map, List.map_map] at same
    have kept : Instruction.encode ∘ Instruction.canonical = Instruction.encode :=
      funext Instruction.encode_canonical
    rw [kept] at same
    rw [assemble, assemble, ← List.flatMap_map, same, List.flatMap_map]

theorem ofBytes_eq_ok_iff {data : List UInt8} {variant : Variant} {image : Image} :
    ofBytes data (some variant) = .ok image ↔
      (data ≠ [] ∧ data.length ≤ variant.budget) ∧ { data, variant } = image := by
  rw [ofBytes]
  split
  next empty =>
    constructor
    · intro impossible
      cases impossible
    · rintro ⟨⟨nonempty, _⟩, _⟩
      exact absurd empty nonempty
  next nonempty =>
    rw [Option.getD_some]
    simp only
    split
    next large =>
      constructor
      · intro impossible
        cases impossible
      · rintro ⟨⟨_, fits⟩, _⟩
        omega
    next fits =>
      constructor
      · intro equal
        exact ⟨⟨nonempty, Nat.le_of_not_lt fits⟩, Except.ok.inj equal⟩
      · rintro ⟨_, rfl⟩
        rfl

theorem ofInstructions_eq_ok_iff {program : List Instruction} {variant : Variant} {image : Image} :
    ofInstructions program variant = .ok image ↔
      (program ≠ [] ∧ 2 * program.length ≤ variant.budget) ∧
        { data := assemble program, variant } = image := by
  have empty : assemble program = [] ↔ program = [] := by
    rw [← List.length_eq_zero_iff, length_assemble, ← List.length_eq_zero_iff]
    omega
  rw [ofInstructions, ofBytes_eq_ok_iff, length_assemble, Ne, empty]

/-! ## Programs of images -/

theorem instructions_rows_assemble (program : List Instruction) (base : Int) :
    (Listing.rows (assemble program) base).map (·.instruction) =
      program.map (some ·.canonical) := by
  rw [Listing.instructions_rows, words_assemble, List.map_map]
  exact List.map_congr_left fun instruction _ => Instruction.ofWord?_encode_eq instruction

theorem map_canonical_eq_map_some_iff (program : List Instruction) :
    program.map (some ·.canonical) = program.map some ↔
      ∀ instruction ∈ program, ¬instruction.Shadowed := by
  rw [List.map_inj_left]
  constructor
  · intro same instruction member
    exact (instruction.canonical_eq_self_iff).mp (Option.some.inj (same instruction member))
  · intro free instruction member
    exact congrArg some ((instruction.canonical_eq_self_iff).mpr (free instruction member))

/-- A program that is not empty and keeps to the budget is assembled. Its image lists its
instructions as they are read, which is unchanged unless a native call is in the shadow of a
literal, and shares its image with the programs that are read alike alone. -/
theorem listing_ofInstructions {program : List Instruction} {variant : Variant}
    (nonempty : program ≠ []) (fits : 2 * program.length ≤ variant.budget) :
    (∀ instruction : Instruction,
      Instruction.ofWord? instruction.encode = some instruction ↔ ¬instruction.Shadowed) ∧
    ∃ image, ofInstructions program variant = .ok image ∧
      (∀ base, (Listing.rows image.data base).map (·.instruction) =
        program.map (some ·.canonical)) ∧
      (∀ base, (Listing.rows image.data base).map (·.instruction) = program.map some ↔
        ∀ instruction ∈ program, ¬instruction.Shadowed) ∧
      ∀ other, ofInstructions other variant = .ok image ↔
        other.map Instruction.canonical = program.map Instruction.canonical := by
  have listed := instructions_rows_assemble program
  refine ⟨?_, _, ofInstructions_eq_ok_iff.mpr ⟨⟨nonempty, fits⟩, rfl⟩, listed, ?_, ?_⟩
  · intro instruction
    rw [Instruction.ofWord?_encode_eq, Option.some_inj, Instruction.canonical_eq_self_iff]
  · intro base
    rw [listed base, map_canonical_eq_map_some_iff]
  · intro other
    rw [ofInstructions_eq_ok_iff, Image.mk.injEq, assemble_eq_iff]
    constructor
    · rintro ⟨_, alike, _⟩
      exact alike
    · intro alike
      have lengths := congrArg List.length alike
      rw [List.length_map, List.length_map] at lengths
      refine ⟨⟨?_, by omega⟩, alike, rfl⟩
      intro empty
      rw [empty] at lengths
      exact nonempty (List.length_eq_zero_iff.mp lengths.symm)

/-- The native call at the word of `clearScreen` takes the place of that literal, and gives it back
instead of itself. -/
theorem listing_ofInstructions_of_shadowed :
    ∃ image, ofInstructions [⟨.sys, 0x0E0⟩, ⟨.jump, 0x200⟩] .standard = .ok image ∧
      (Listing.rows image.data 0x200).map (·.instruction) =
        [some ⟨.clearScreen, ()⟩, some ⟨.jump, 0x200⟩] := by
  rcases (@listing_ofInstructions [⟨.sys, 0x0E0⟩, ⟨.jump, 0x200⟩] .standard nofun
    (by decide)).2 with ⟨image, assembled, listed, _⟩
  exact ⟨image, assembled, listed 0x200⟩

/-- Numbers make a native call that is lost when it is assembled: another program has its image. -/
theorem shadowed_program_lost :
    Instruction.ofFields .sys { addr := 0x0E0 } = .ok ⟨.sys, 0x0E0⟩ ∧
      Instruction.ofWord? (Instruction.encode ⟨.sys, 0x0E0⟩) ≠ some ⟨.sys, 0x0E0⟩ ∧
      (∃ image, ofInstructions [⟨.sys, 0x0E0⟩] .standard = .ok image ∧
        ofInstructions [⟨.clearScreen, ()⟩] .standard = .ok image ∧
        (Listing.rows image.data 0x200).map (·.instruction) ≠ [some ⟨.sys, 0x0E0⟩]) := by
  refine ⟨rfl, by decide, ⟨[0x00, 0xE0], .standard⟩, rfl, rfl, by decide⟩

end Image

/-! ## Listings of images -/

namespace Listing

theorem map_encode_filterMap {rows : List ListingRow}
    (code : ∀ row ∈ rows, row.instruction ≠ none)
    (encoded : ∀ row ∈ rows, ∀ instruction, row.instruction = some instruction →
      instruction.encode = row.word) :
    (rows.filterMap (·.instruction)).map Instruction.encode = rows.map (·.word) := by
  induction rows with
  | nil => rfl
  | cons row rest induction =>
      rw [List.forall_mem_cons] at code encoded
      rcases Option.ne_none_iff_exists'.mp code.1 with ⟨instruction, decoded⟩
      rw [List.filterMap_cons_some decoded, List.map_cons, List.map_cons,
        induction code.2 encoded.2, encoded.1 instruction decoded]

/-- A listing keeps the bytes of an image. Its rows follow each other, two bytes apart; those
without an instruction are the words that no opcode has, and the others are the words of their
instructions. If all are code, the instructions assemble to the image. -/
theorem rows_lossless (data : List UInt8) (base : Int) :
    (rows data base).length = (data.length + 1) / 2 ∧
    (∀ (index : Nat) (row : ListingRow), (rows data base)[index]? = some row →
      row.address = base + 2 * index) ∧
    (rows data base).flatMap (·.word.bytes) = data ++ List.replicate (data.length % 2) 0 ∧
    (∀ row ∈ rows data base,
      (row.instruction = none ↔ row.word.Undefined) ∧
        ∀ instruction, row.instruction = some instruction → instruction.encode = row.word) ∧
    ∀ variant : Variant, data ≠ [] → data.length % 2 = 0 → data.length ≤ variant.budget →
      (∀ row ∈ rows data base, row.instruction ≠ none) →
      Image.ofInstructions ((rows data base).filterMap (·.instruction)) variant =
        .ok { data, variant } := by
  have encoded (row : ListingRow) (member : row ∈ rows data base) (instruction : Instruction)
      (decoded : row.instruction = some instruction) : instruction.encode = row.word := by
    rw [instruction_of_mem_rows member] at decoded
    exact Instruction.encode_of_ofWord? decoded
  refine ⟨length_rows data base, ?_, bytes_rows data base, ?_, ?_⟩
  · intro index row found
    rw [getElem?_rows] at found
    rcases Option.map_eq_some_iff.mp found with ⟨word, _, rfl⟩
    rfl
  · intro row member
    refine ⟨?_, encoded row member⟩
    rw [instruction_of_mem_rows member, Instruction.ofWord?_eq_none_iff]
  · intro variant nonempty even fits code
    have bytes : Image.assemble ((rows data base).filterMap (·.instruction)) = data := by
      rw [Image.assemble, ← List.flatMap_map, map_encode_filterMap code encoded, List.flatMap_map,
        bytes_rows, completed, even]
      exact List.append_nil data
    rw [Image.ofInstructions, bytes]
    exact Image.ofBytes_eq_ok_iff.mpr ⟨⟨nonempty, fits⟩, rfl⟩

theorem rows_lossless_of_odd_image :
    (rows [0x12, 0x00, 0x5F] 0x200).flatMap (·.word.bytes) = [0x12, 0x00, 0x5F, 0x00] ∧
      Word.Undefined 0xF100 ∧
      Image.ofInstructions [⟨.jump, 0x200⟩] .standard = .ok ⟨[0x12, 0x00], .standard⟩ := by
  rcases rows_lossless [0x12, 0x00, 0x5F] 0x200 with ⟨_, _, bytes, _, _⟩
  rcases rows_lossless [0xF1, 0x00] 0x200 with ⟨_, _, _, grammar, _⟩
  rcases rows_lossless [0x12, 0x00] 0x200 with ⟨_, _, _, _, assembles⟩
  refine ⟨bytes, (grammar _ (.head _)).1.mp rfl, ?_⟩
  exact assembles .standard nofun rfl (by decide) (by decide)

end Listing

end Chip8
