import Chip8.Proofs.Instruction.Assembly
import Chip8.Proofs.Listing.RoundTrip

/-! # Reading listings

A listing says of which image it is and, unless the image is empty, where that begins. Its third
column alone says of which image it is: a row of data is written like an instruction of a mnemonic
that no opcode has, so no two words have the same statement.
-/

namespace Chip8

namespace ListingRow

/-! ## Statements -/

theorem statement_of_instruction (address : Int) {word : Word} {instruction : Instruction}
    (code : Instruction.ofWord? word = some instruction) :
    (ofWord address word).statement = instruction.text := by
  rw [statement, ofWord, code]

theorem statement_of_data (address : Int) {word : Word} (data : Instruction.ofWord? word = none) :
    (ofWord address word).statement =
      Instruction.assemble "DW" ["0x" ++ Text.Hex.numeral 4 word.toNat] := by
  rw [statement, ofWord, data]
  simp [Instruction.assemble, ← String.append_assoc]

theorem unbroken_data : Text.Unbroken "DW".toList := by decide

theorem unbroken_dataOperand (word : Word) :
    ∀ text ∈ ["0x" ++ Text.Hex.numeral 4 word.toNat], Text.Unbroken text.toList := by
  have label : Text.Unbroken "0x".toList := by decide
  intro text listed
  rw [List.mem_singleton.mp listed, String.toList_append, Text.Hex.numeral]
  exact label.append (String.toList_ofList ▸ Text.unbroken_padded 4 word.toNat)

theorem statement_ne_of_data {address : Int} {code data : Word} {instruction : Instruction}
    (decoded : Instruction.ofWord? code = some instruction)
    (foreign : Instruction.ofWord? data = none) :
    (ofWord address code).statement ≠ (ofWord address data).statement := by
  rw [statement_of_instruction address decoded, statement_of_data address foreign]
  intro same
  exact instruction.opcode.mnemonic_ne_data (Instruction.assemble_inj
    instruction.opcode.unbroken_mnemonic unbroken_data instruction.unbroken_operands
    (unbroken_dataOperand data) same).1

theorem statement_injective (address : Int) :
    Function.Injective fun word => (ofWord address word).statement := by
  intro left right same
  cases leftCode : Instruction.ofWord? left with
  | some leftInstruction =>
      cases rightCode : Instruction.ofWord? right with
      | some rightInstruction =>
          simp only [statement_of_instruction address leftCode,
            statement_of_instruction address rightCode] at same
          rw [← Instruction.encode_of_ofWord? leftCode, Instruction.text_injective same,
            Instruction.encode_of_ofWord? rightCode]
      | none => exact absurd same (statement_ne_of_data leftCode rightCode)
  | none =>
      cases rightCode : Instruction.ofWord? right with
      | some rightInstruction => exact absurd same.symm (statement_ne_of_data rightCode leftCode)
      | none =>
          simp only [statement_of_data address leftCode,
            statement_of_data address rightCode] at same
          have operands := (Instruction.assemble_inj unbroken_data unbroken_data
            (unbroken_dataOperand left) (unbroken_dataOperand right) same).2
          have numerals := congrArg String.toList (List.cons.inj operands).1
          rw [String.toList_append, String.toList_append, List.append_cancel_left_eq] at numerals
          have numbers := Text.Hex.numeral_injective 4 (String.toList_inj.mp numerals)
          exact UInt16.toNat_inj.mp (Int.ofNat_inj.mp numbers)

/-! ## Lines -/

theorem toList_text (row : ListingRow) :
    row.text.toList = ['0', 'x'] ++ (Text.Hex.padded 3 row.address ++ ' ' :: '|' :: ' ' ::
      (Text.Hex.padded 4 row.word.toNat ++ ' ' :: '|' :: ' ' :: row.statement.toList)) := by
  simp [text, Text.Hex.numeral]

theorem text_inj {left right : ListingRow} (same : left.text = right.text) :
    left.address = right.address ∧ left.word = right.word := by
  have lists := congrArg String.toList same
  have columns (width : Nat) (value : Int) : ' ' ∉ Text.Hex.padded width value :=
    Text.unbroken_padded width value ' ' (by decide)
  rw [toList_text, toList_text, List.append_cancel_left_eq] at lists
  rcases Text.append_inj_of_separator (columns 3 _) (columns 3 _) rfl rfl lists
    with ⟨addresses, rest⟩
  simp only [List.cons_inj_right] at rest
  rcases Text.append_inj_of_separator (columns 4 _) (columns 4 _) rfl rfl rest with ⟨numbers, _⟩
  exact ⟨Text.Hex.padded_injective 3 addresses,
    UInt16.toNat_inj.mp (Int.ofNat_inj.mp (Text.Hex.padded_injective 4 numbers))⟩

theorem newline_not_mem_statement (address : Int) (word : Word) :
    '\n' ∉ (ofWord address word).statement.toList := by
  cases code : Instruction.ofWord? word with
  | some instruction =>
      rw [statement_of_instruction address code]
      exact Instruction.newline_not_mem_assemble instruction.opcode.unbroken_mnemonic
        instruction.unbroken_operands
  | none =>
      rw [statement_of_data address code]
      exact Instruction.newline_not_mem_assemble unbroken_data (unbroken_dataOperand word)

theorem newline_not_mem_text (address : Int) (word : Word) :
    '\n' ∉ (ofWord address word).text.toList := by
  have columns (width : Nat) (value : Int) : '\n' ∉ Text.Hex.padded width value :=
    Text.unbroken_padded width value '\n' (by decide)
  have last := newline_not_mem_statement address word
  rw [toList_text]
  simp [columns, last]

end ListingRow

namespace Listing

theorem toList_text (data : List UInt8) (base : Int) :
    (text data base).toList =
      header.toList ++ Text.chained '\n' [] ((rows data base).map ListingRow.text) := by
  have lines (first : String) (rest : List String) :
      ("\n".intercalate (first :: rest)).toList =
        first.toList ++ Text.chained '\n' [] rest := by
    induction rest generalizing first with
    | nil => simp [Text.chained]
    | cons second rest induction =>
        rw [String.intercalate_cons_cons, String.toList_append, induction, Text.chained_cons]
        simp
  exact lines header _

theorem rowsOfWords_inj {left right : List Word} {leftBase rightBase : Int}
    (same : (rowsOfWords leftBase left).map ListingRow.text =
      (rowsOfWords rightBase right).map ListingRow.text) :
    left = right ∧ (left ≠ [] → leftBase = rightBase) := by
  induction left generalizing right leftBase rightBase with
  | nil =>
      cases right with
      | nil => exact ⟨rfl, fun some => absurd rfl some⟩
      | cons word rest => cases same
  | cons word rest induction =>
      cases right with
      | nil => cases same
      | cons other others =>
          rcases List.cons.inj same with ⟨first, tails⟩
          rcases ListingRow.text_inj first with ⟨bases, words⟩
          exact ⟨List.cons_eq_cons.mpr ⟨words, (induction tails).1⟩, fun _ => bases⟩

theorem newline_not_mem_lines {data : List UInt8} {base : Int} :
    ∀ line ∈ (rows data base).map ListingRow.text, '\n' ∉ line.toList := by
  intro line member
  rcases List.mem_map.mp member with ⟨row, listed, rfl⟩
  rcases List.mem_iff_getElem?.mp listed with ⟨index, found⟩
  rw [getElem?_rows] at found
  rcases Option.map_eq_some_iff.mp found with ⟨word, _, rfl⟩
  exact ListingRow.newline_not_mem_text _ word

theorem completed_of_even {data : List UInt8} (even : data.length % 2 = 0) :
    completed data = data := by
  rw [completed, even]
  exact List.append_nil data

theorem eq_of_words {left right : List UInt8} (leftEven : left.length % 2 = 0)
    (rightEven : right.length % 2 = 0) (same : words left = words right) : left = right := by
  rw [← completed_of_even leftEven, ← completed_of_even rightEven, ← bytes_words, ← bytes_words,
    same]

theorem statements_rows (data : List UInt8) (base : Int) :
    (rows data base).map ListingRow.statement =
      (words data).map fun word => (ListingRow.ofWord 0 word).statement :=
  map_rowsOfWords (fun _ _ => rfl) base (words data)

theorem words_of_statements {left right : List UInt8} {leftBase rightBase : Int}
    (same : (rows left leftBase).map ListingRow.statement =
      (rows right rightBase).map ListingRow.statement) : words left = words right := by
  rw [statements_rows, statements_rows] at same
  exact List.map_injective_iff.mpr (ListingRow.statement_injective 0) same

theorem words_of_text {left right : List UInt8} {leftBase rightBase : Int}
    (same : text left leftBase = text right rightBase) :
    words left = words right ∧ (words left ≠ [] → leftBase = rightBase) := by
  have lists := congrArg String.toList same
  rw [toList_text, toList_text, List.append_cancel_left_eq] at lists
  exact rowsOfWords_inj
    (Text.chained_inj newline_not_mem_lines newline_not_mem_lines lists)

/-- Images of even size have the same listing only if they are the same and, when there is anything
in them, begin at the same address. They have the same statements only if they are the same. -/
theorem text_unambiguous {left right : List UInt8} (leftEven : left.length % 2 = 0)
    (rightEven : right.length % 2 = 0) (leftBase rightBase : Int) :
    (text left leftBase = text right rightBase ↔
      left = right ∧ (left ≠ [] → leftBase = rightBase)) ∧
    ((rows left leftBase).map ListingRow.statement =
      (rows right rightBase).map ListingRow.statement ↔ left = right) := by
  refine ⟨⟨?_, ?_⟩, ⟨?_, ?_⟩⟩
  · intro same
    rcases words_of_text same with ⟨programs, bases⟩
    refine ⟨eq_of_words leftEven rightEven programs, fun filled => bases fun empty => filled ?_⟩
    exact eq_of_words leftEven rfl empty
  · rintro ⟨rfl, bases⟩
    cases left with
    | nil => rfl
    | cons first rest => rw [bases (List.cons_ne_nil first rest)]
  · intro same
    exact eq_of_words leftEven rightEven (words_of_statements same)
  · rintro rfl
    rw [statements_rows, statements_rows]

theorem text_unambiguous_of_loads :
    text [0x60, 0x10] (-1) ≠ text [0x60, 0x10] 0xFFF ∧
      (rows [0x60, 0x10] 0).map ListingRow.statement ≠
        (rows [0x80, 0x10] 0).map ListingRow.statement := by
  constructor
  · intro same
    have bases := ((text_unambiguous rfl rfl (-1) 0xFFF).1.mp same).2 (List.cons_ne_nil _ _)
    exact absurd bases (by decide)
  · intro same
    exact absurd ((text_unambiguous rfl rfl 0 0).2.mp same) (by decide)

end Listing

end Chip8
