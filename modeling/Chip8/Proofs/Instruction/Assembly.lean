import Chip8.Proofs.Instruction.Fields
import Chip8.Proofs.Text.Hex
import Mathlib.Data.List.Basic
import Mathlib.Data.List.Nodup

/-! # The assembly text of instructions

No two instructions are written alike. A text falls apart into the mnemonic and the operands, since
none of them holds a separator. Many opcodes share a mnemonic, but no two of them also agree in the
forms of all operands, and the form of an operand is seen from its text, whatever the number is.
-/

namespace Chip8

/-! ## Separators -/

namespace Text

def separators : List Char := [' ', ',', '\n']

/-- A part of a text: no separator is among its characters, so it is never split. -/
def Unbroken (part : List Char) : Prop := ∀ separator ∈ separators, separator ∉ part

instance (part : List Char) : Decidable (Unbroken part) := List.decidableBAll _ separators

theorem Unbroken.append {left right : List Char} (leftPart : Unbroken left)
    (rightPart : Unbroken right) : Unbroken (left ++ right) := by
  intro separator member
  rw [List.mem_append, not_or]
  exact ⟨leftPart separator member, rightPart separator member⟩

theorem unbroken_padded (width : Nat) (value : Int) : Unbroken (Hex.padded width value) := by
  have alphabet : Unbroken Hex.alphabet := by decide
  exact fun separator member digit => alphabet separator member (Hex.mem_padded digit)

variable {separator : Char}

/-- A text is cut at the first separator, so it is known where its first part ends. -/
theorem append_inj_of_separator {left right leftRest rightRest : List Char}
    (leftFree : separator ∉ left) (rightFree : separator ∉ right)
    (leftNext : leftRest.takeWhile (· != separator) = [])
    (rightNext : rightRest.takeWhile (· != separator) = [])
    (same : left ++ leftRest = right ++ rightRest) : left = right ∧ leftRest = rightRest := by
  have front {part rest : List Char} (free : separator ∉ part)
      (next : rest.takeWhile (· != separator) = []) :
      (part ++ rest).takeWhile (· != separator) = part := by
    rw [List.takeWhile_append_of_pos, next, List.append_nil]
    intro character member
    exact bne_iff_ne.mpr (ne_of_mem_of_not_mem member free)
  have parts : left = right := by
    rw [← front leftFree leftNext, same, front rightFree rightNext]
  rw [parts] at same
  exact ⟨parts, List.append_cancel_left same⟩

def chained (separator : Char) (gap : List Char) (parts : List String) : List Char :=
  parts.flatMap fun part => separator :: gap ++ part.toList

theorem chained_cons (gap : List Char) (first : String) (rest : List String) :
    chained separator gap (first :: rest) =
      separator :: gap ++ (first.toList ++ chained separator gap rest) := by
  rw [chained, List.flatMap_cons, List.append_assoc]
  rfl

theorem not_mem_chained {character : Char} {gap : List Char} {parts : List String}
    (lead : character ∉ separator :: gap) (free : ∀ part ∈ parts, character ∉ part.toList) :
    character ∉ chained separator gap parts := by
  rw [chained, List.mem_flatMap]
  rintro ⟨part, listed, member⟩
  rcases List.mem_append.mp member with front | inside
  · exact lead front
  · exact free part listed inside

theorem takeWhile_chained (gap : List Char) (parts : List String) :
    (chained separator gap parts).takeWhile (· != separator) = [] := by
  cases parts with
  | nil => rfl
  | cons first rest => simp [chained]

theorem chained_inj {gap : List Char} {left right : List String}
    (leftFree : ∀ part ∈ left, separator ∉ part.toList)
    (rightFree : ∀ part ∈ right, separator ∉ part.toList)
    (same : chained separator gap left = chained separator gap right) : left = right := by
  induction left generalizing right with
  | nil =>
      cases right with
      | nil => rfl
      | cons first rest => cases same
  | cons first rest induction =>
      cases right with
      | nil => cases same
      | cons other others =>
          rw [List.forall_mem_cons] at leftFree rightFree
          rw [chained_cons, chained_cons, List.append_cancel_left_eq] at same
          rcases append_inj_of_separator leftFree.1 rightFree.1 (takeWhile_chained gap rest)
            (takeWhile_chained gap others) same with ⟨parts, rests⟩
          rw [String.toList_inj.mp parts, induction leftFree.2 rightFree.2 rests]

end Text

/-! ## Operands -/

namespace Operand

inductive Form
  | register
  | hexadecimal (length : Nat)
  | decimal
  | symbol (text : List Char)
  deriving DecidableEq

def Form.ofText : List Char → Form
  | 'V' :: _ => .register
  | '0' :: 'x' :: digits => .hexadecimal digits.length
  | text => if text.all Char.isDigit then .decimal else .symbol text

def form : Operand → Form
  | .vx | .vy => .register
  | .byte => .hexadecimal 2
  | .address => .hexadecimal 3
  | .height => .decimal
  | .symbol name => .ofText name.toList

def label : Operand → String
  | .vx | .vy => "V"
  | .byte | .address => "0x"
  | .height => ""
  | .symbol name => name

def digits (operand : Operand) (value : Int) : List Char :=
  match operand with
  | .vx | .vy => Text.Hex.padded 1 value
  | .byte => Text.Hex.padded 2 value
  | .address => Text.Hex.padded 3 value
  | .height => (toString value).toList
  | .symbol _ => []

def field? : Operand → Option Field
  | .vx => some .x
  | .vy => some .y
  | .byte => some .kk
  | .address => some .addr
  | .height => some .n
  | .symbol _ => none

end Operand

namespace Opcode

theorem mem_fields_iff (opcode : Opcode) (field : Field) :
    field ∈ opcode.layout.fields ↔ ∃ operand ∈ opcode.operands, operand.field? = some field := by
  have listed : opcode.operands.filterMap Operand.field? = opcode.layout.fields := by
    cases opcode <;> rfl
  rw [← listed, List.mem_filterMap]

theorem unbroken_mnemonic (opcode : Opcode) : Text.Unbroken opcode.mnemonic.toList := by
  have checked : ∀ opcode ∈ all, Text.Unbroken opcode.mnemonic.toList := by decide +kernel
  exact checked opcode (mem_all opcode)

theorem unbroken_label {opcode : Opcode} {operand : Operand} (member : operand ∈ opcode.operands) :
    Text.Unbroken operand.label.toList := by
  have checked : ∀ opcode ∈ all, ∀ operand ∈ opcode.operands,
      Text.Unbroken operand.label.toList := by decide +kernel
  exact checked opcode (mem_all opcode) operand member

theorem mnemonic_ne_data (opcode : Opcode) : opcode.mnemonic ≠ "DW" := by
  have checked : ∀ opcode ∈ all, opcode.mnemonic ≠ "DW" := by decide +kernel
  exact checked opcode (mem_all opcode)

/-- Opcodes that share a mnemonic differ in the forms of their operands. -/
theorem eq_of_forms {left right : Opcode} (mnemonic : left.mnemonic = right.mnemonic)
    (forms : left.operands.map Operand.form = right.operands.map Operand.form) : left = right := by
  have distinct : (all.map fun opcode =>
      (opcode.mnemonic, opcode.operands.map Operand.form)).Nodup := by decide +kernel
  exact List.inj_on_of_nodup_map distinct (mem_all left) (mem_all right)
    (Prod.ext mnemonic forms)

end Opcode

/-! ## Texts of operands -/

namespace Operand

theorem decimal_fin (value : Fin 16) :
    Form.ofText (toString (value.val : Int)).toList = .decimal ∧
      Text.Unbroken (toString (value.val : Int)).toList ∧
      ∀ other : Fin 16,
        toString (value.val : Int) = toString (other.val : Int) → value = other := by
  revert value
  decide +kernel

theorem exists_fin {value : Int} (fits : 0 ≤ value ∧ value < Field.n.limit) :
    ∃ small : Fin 16, value = small.val := by
  rcases Int.eq_ofNat_of_zero_le fits.1 with ⟨number, rfl⟩
  exact ⟨⟨number, Int.ofNat_lt.mp fits.2⟩, rfl⟩

theorem length_padded_of_fits {field : Field} {width : Nat} {value : Int} (positive : 0 < width)
    (wide : field.limit = 16 ^ width) (fits : 0 ≤ value ∧ value < field.limit) :
    (Text.Hex.padded width value).length = width := by
  rcases Int.eq_ofNat_of_zero_le fits.1 with ⟨number, rfl⟩
  exact Text.Hex.length_padded positive (wide ▸ Int.ofNat_lt.mp fits.2)

theorem unbroken_digits {operand : Operand} {field : Field} {value : Int}
    (held : operand.field? = some field) (fits : 0 ≤ value ∧ value < field.limit) :
    Text.Unbroken (operand.digits value) := by
  cases operand with
  | vx | vy | byte | address => exact Text.unbroken_padded _ value
  | height =>
      cases held
      rcases exists_fin fits with ⟨small, rfl⟩
      exact (decimal_fin small).2.1
  | symbol name => cases held

theorem digits_inj {operand : Operand} {field : Field} {left right : Int}
    (held : operand.field? = some field) (leftFits : 0 ≤ left ∧ left < field.limit)
    (rightFits : 0 ≤ right ∧ right < field.limit)
    (same : operand.digits left = operand.digits right) : left = right := by
  cases operand with
  | vx | vy | byte | address => exact Text.Hex.padded_injective _ same
  | height =>
      cases held
      rcases exists_fin leftFits with ⟨small, rfl⟩
      rcases exists_fin rightFits with ⟨other, rfl⟩
      rw [(decimal_fin small).2.2 other (String.toList_inj.mp same)]
  | symbol name => cases held

end Operand

namespace Instruction

variable {fields left right : Fields} {operand : Operand}

theorem toList_operandText {field : Field} (held : operand.field? = some field) (fields : Fields) :
    (operandText fields operand).toList =
      operand.label.toList ++ operand.digits (fields.get field) := by
  cases operand <;> cases held <;>
    simp [operandText, Operand.label, Operand.digits, Fields.get, Text.Hex.numeral]

theorem ofText_operandText {layout : Layout} (fits : layout.Fits fields) (operand : Operand) :
    Operand.Form.ofText (operandText fields operand).toList = operand.form := by
  cases operand with
  | vx | vy => simp [operandText, Operand.Form.ofText, Operand.form]
  | byte =>
      have length := Operand.length_padded_of_fits (by decide : 0 < 2) rfl (fits .kk).2
      rw [toList_operandText rfl]
      exact congrArg Operand.Form.hexadecimal length
  | address =>
      have length := Operand.length_padded_of_fits (by decide : 0 < 3) rfl (fits .addr).2
      rw [toList_operandText rfl]
      exact congrArg Operand.Form.hexadecimal length
  | height =>
      rcases Operand.exists_fin (fits .n).2 with ⟨small, number⟩
      rw [toList_operandText rfl, number]
      exact (Operand.decimal_fin small).1
  | symbol name => rfl

theorem unbroken_operandText {layout : Layout} (fits : layout.Fits fields)
    (label : Text.Unbroken operand.label.toList) :
    Text.Unbroken (operandText fields operand).toList := by
  cases held : operand.field? with
  | none =>
      cases operand with
      | symbol name => exact label
      | _ => cases held
  | some field =>
      rw [toList_operandText held]
      exact label.append (Operand.unbroken_digits held (fits field).2)

theorem get_eq_of_operandText {layout : Layout} (leftFits : layout.Fits left)
    (rightFits : layout.Fits right) {field : Field} (held : operand.field? = some field)
    (same : operandText left operand = operandText right operand) :
    left.get field = right.get field := by
  have texts := congrArg String.toList same
  rw [toList_operandText held, toList_operandText held, List.append_cancel_left_eq] at texts
  exact Operand.digits_inj held (leftFits field).2 (rightFits field).2 texts

/-! ## Texts of instructions -/

def operandList : List String → List Char
  | [] => []
  | first :: rest => ' ' :: (first.toList ++ Text.chained ',' [' '] rest)

theorem toList_assemble (mnemonic : String) (texts : List String) :
    (assemble mnemonic texts).toList = mnemonic.toList ++ operandList texts := by
  cases texts with
  | nil => exact (List.append_nil _).symm
  | cons first rest =>
      have behind (front : String) :
          (rest.foldl (fun text operand => text ++ ", " ++ operand) front).toList =
            front.toList ++ Text.chained ',' [' '] rest := by
        induction rest generalizing front with
        | nil => exact (List.append_nil _).symm
        | cons second rest induction =>
            rw [List.foldl_cons, induction, Text.chained_cons]
            simp
      rw [assemble, behind, operandList]
      simp

theorem takeWhile_operandList (texts : List String) :
    (operandList texts).takeWhile (· != ' ') = [] := by
  cases texts with
  | nil => rfl
  | cons first rest => rfl

theorem assemble_inj {leftMnemonic rightMnemonic : String} {leftTexts rightTexts : List String}
    (leftFirst : Text.Unbroken leftMnemonic.toList) (rightFirst : Text.Unbroken rightMnemonic.toList)
    (leftParts : ∀ text ∈ leftTexts, Text.Unbroken text.toList)
    (rightParts : ∀ text ∈ rightTexts, Text.Unbroken text.toList)
    (same : assemble leftMnemonic leftTexts = assemble rightMnemonic rightTexts) :
    leftMnemonic = rightMnemonic ∧ leftTexts = rightTexts := by
  have lists := congrArg String.toList same
  rw [toList_assemble, toList_assemble] at lists
  rcases Text.append_inj_of_separator (leftFirst ' ' (by decide)) (rightFirst ' ' (by decide))
    (takeWhile_operandList leftTexts) (takeWhile_operandList rightTexts) lists
    with ⟨mnemonic, rest⟩
  refine ⟨String.toList_inj.mp mnemonic, ?_⟩
  cases leftTexts with
  | nil =>
      cases rightTexts with
      | nil => rfl
      | cons other others => cases rest
  | cons first others =>
      cases rightTexts with
      | nil => cases rest
      | cons second more =>
          rw [List.forall_mem_cons] at leftParts rightParts
          rw [operandList, operandList, List.cons_inj_right] at rest
          rcases Text.append_inj_of_separator (leftParts.1 ',' (by decide))
            (rightParts.1 ',' (by decide)) (Text.takeWhile_chained _ _)
            (Text.takeWhile_chained _ _) rest with ⟨firstSame, moreSame⟩
          have tails := Text.chained_inj
            (fun text member => leftParts.2 text member ',' (by decide))
            (fun text member => rightParts.2 text member ',' (by decide)) moreSame
          rw [String.toList_inj.mp firstSame, tails]

theorem newline_not_mem_assemble {mnemonic : String} {texts : List String}
    (first : Text.Unbroken mnemonic.toList) (parts : ∀ text ∈ texts, Text.Unbroken text.toList) :
    '\n' ∉ (assemble mnemonic texts).toList := by
  have newline : '\n' ∈ Text.separators := by decide
  rw [toList_assemble, List.mem_append, not_or]
  refine ⟨first '\n' newline, ?_⟩
  cases texts with
  | nil => exact List.not_mem_nil
  | cons second rest =>
      rw [List.forall_mem_cons] at parts
      rw [operandList, List.mem_cons, List.mem_append, not_or, not_or]
      refine ⟨by decide, parts.1 '\n' newline, Text.not_mem_chained (by decide) ?_⟩
      exact fun text listed => parts.2 text listed '\n' newline

theorem unbroken_operands (instruction : Instruction) :
    ∀ text ∈ instruction.opcode.operands.map (operandText instruction.fields),
      Text.Unbroken text.toList := by
  intro text member
  rcases List.mem_map.mp member with ⟨operand, listed, rfl⟩
  exact unbroken_operandText (Layout.fits_toFields _ instruction.operands)
    (Opcode.unbroken_label listed)

theorem eq_of_operands {left right : Instruction} (opcodes : left.opcode = right.opcode)
    (texts : left.opcode.operands.map (operandText left.fields) =
      right.opcode.operands.map (operandText right.fields)) : left = right := by
  rcases left with ⟨opcode, leftOperands⟩
  rcases right with ⟨_, rightOperands⟩
  cases opcodes
  have leftFits := Layout.fits_toFields _ leftOperands
  have rightFits := Layout.fits_toFields _ rightOperands
  have numbers (field : Field) :
      (opcode.layout.toFields leftOperands).get field =
        (opcode.layout.toFields rightOperands).get field := by
    by_cases used : field ∈ opcode.layout.fields
    · rcases (opcode.mem_fields_iff field).mp used with ⟨operand, listed, held⟩
      exact get_eq_of_operandText leftFits rightFits held
        (List.map_inj_left.mp texts operand listed)
    · rw [(leftFits field).1.resolve_left used, (rightFits field).1.resolve_left used]
  rw [← opcode.layout.ofFields_toFields leftOperands, Fields.ext_get numbers,
    Layout.ofFields_toFields]

/-- No two instructions are written alike. -/
theorem text_injective : Function.Injective text := by
  intro left right same
  rcases assemble_inj left.opcode.unbroken_mnemonic right.opcode.unbroken_mnemonic
    left.unbroken_operands right.unbroken_operands same with ⟨mnemonics, texts⟩
  have forms (instruction : Instruction) :
      (instruction.opcode.operands.map (operandText instruction.fields)).map
        (fun text => Operand.Form.ofText text.toList) =
        instruction.opcode.operands.map Operand.form := by
    rw [List.map_map]
    refine List.map_congr_left fun operand _ => ?_
    exact ofText_operandText (Layout.fits_toFields _ instruction.operands) operand
  -- Only when the opcode is known is it known which number an operand text is of.
  refine eq_of_operands (Opcode.eq_of_forms mnemonics ?_) texts
  rw [← forms left, texts, forms right]

end Instruction

end Chip8
