import Chip8.Machine.Options
import Chip8.Proofs.Display.Drawing

/-! # Drawing bit by bit

The plainest way to draw a sprite goes through its rows and, in each, through its bits from the
most significant one on. A set bit toggles its pixel, and collides if it finds the pixel lit.
Counting hits gives the same screen and the same report as long as no coordinate and no count leaves
the range of 32 bits, on screens of any size: also where several bits wrap onto one pixel.
-/

namespace Chip8.Display

variable {x y : Int}

/-! ## The plain way -/

def takeBit (x y : Int) (bits : BitVec 8) (row : Nat) (state : Display × Bool) (column : Nat) :
    Display × Bool :=
  let (display, collided) := state
  if bits.getMsbD column then
    let column := ((x + column) % display.width).toNat
    let row := ((y + row) % display.height).toNat
    (display.flip column row, collided || display.isLit column row)
  else
    (display, collided)

def takeRow (x y : Int) (state : Display × Bool) (row : UInt8 × Nat) : Display × Bool :=
  (List.range 8).foldl (takeBit x y row.1.toBitVec row.2) state

def drawBitwise (display : Display) (x y : Int) (rows : List UInt8) : Display × Bool :=
  rows.zipIdx.foldl (takeRow x y) (display, false)

example : ((blank 4 2).drawBitwise 0 0 [0x88]).1.rows = ["....", "...."] := by decide

/-! ## Set pixels alone -/

theorem flipAll_eq_flipEach (display : Display) (offsets : List (Nat × Nat)) :
    display.flipAll x y offsets = display.flipEach (offsets.map fun (column, row) =>
      display.index ((x + column) % display.width).toNat ((y + row) % display.height).toNat) := by
  induction offsets generalizing display with
  | nil => rfl
  | cons offset rest induction =>
      rw [flipAll, induction, List.map_cons, flipEach]
      rfl

theorem flipAll_append (display : Display) (first second : List (Nat × Nat)) :
    display.flipAll x y (first ++ second) =
      (((display.flipAll x y first).1.flipAll x y second).1,
        (display.flipAll x y first).2 || ((display.flipAll x y first).1.flipAll x y second).2) := by
  simp [flipAll_eq_flipEach, flipEach_append, index]

theorem isSet_eq_getMsbD (row : UInt8) {column : Nat} (within : column < 8) :
    Sprite.isSet row column = row.toBitVec.getMsbD column := by
  simp [Sprite.isSet, BitVec.getMsbD, BitVec.getLsbD, within]

theorem foldl_takeBit (row : UInt8) (line : Nat) (state : Display × Bool) {columns : List Nat}
    (within : ∀ column ∈ columns, column < 8) :
    columns.foldl (takeBit x y row.toBitVec line) state =
      let taken := state.1.flipAll x y ((columns.filter (Sprite.isSet row)).map (·, line))
      (taken.1, state.2 || taken.2) := by
  induction columns generalizing state with
  | nil => simp [flipAll]
  | cons column rest induction =>
      rw [List.forall_mem_cons] at within
      rw [List.foldl_cons, induction _ within.2]
      have same := isSet_eq_getMsbD row within.1
      by_cases set : row.toBitVec.getMsbD column = true
      · simp [takeBit, flipAll, same, set, Bool.or_assoc]
      · simp [takeBit, same, set]

theorem foldl_takeRow (rows : List UInt8) (first : Nat) (state : Display × Bool) :
    (rows.zipIdx first).foldl (takeRow x y) state =
      let taken := state.1.flipAll x y (Sprite.offsetsFrom first rows)
      (taken.1, state.2 || taken.2) := by
  induction rows generalizing first state with
  | nil => simp [flipAll, Sprite.offsetsFrom]
  | cons row rest induction =>
      have bits : takeRow x y state (row, first) = _ :=
        foldl_takeBit row first state fun column => List.mem_range.mp
      rw [List.zipIdx_cons, List.foldl_cons, induction, bits]
      simp [Sprite.offsetsFrom, Sprite.columns, Sprite.rowWidth, flipAll_append, Bool.or_assoc]

theorem drawBitwise_eq_drawPixelwise (display : Display) (rows : List UInt8) :
    display.drawBitwise x y rows = display.drawPixelwise x y rows := by
  rw [drawBitwise, foldl_takeRow]
  simp [drawPixelwise, Sprite.offsets]

/-! ## Counting hits -/

theorem draw_eq_drawPixelwise (display : Display) {rows : List UInt8}
    (short : rows.length < 2 ^ 28) (stays : StaysInRange x y rows) :
    display.draw x y rows = display.drawPixelwise x y rows := by
  rw [draw_eq_flipEach display (countable_targets display x y short),
    targets_of_stays display stays, drawPixelwise, flipAll_eq_flipEach]

/-- Drawing gives the screen and the report of the plain way. So does the instruction, with the
bytes of memory that the index register points at for rows, and with the values that the registers
have before the flag is written. -/
theorem draws_bit_by_bit :
    (∀ (display : Display) (x y : Int) (rows : List UInt8), rows.length < 2 ^ 28 →
      StaysInRange x y rows → display.draw? x y rows = some (display.drawBitwise x y rows)) ∧
    ∀ (machine : Machine) (x y : Register) (height : Nibble) (rows : List UInt8),
      machine.memory.read machine.index.toNat height.val = .ok rows →
      (∀ row : Nat, rows[row]? =
        if row < height.val then machine.memory.byte? (machine.index.toNat + row) else none) ∧
      machine.execute ⟨.draw, (x, y, height)⟩ =
        let (display, collided) :=
          machine.display.drawBitwise machine.v[x].toNat machine.v[y].toNat rows
        .ok { machine with
          display
          v := machine.v.put Registers.flagRegister (Alu.flag collided) } := by
  constructor
  · intro display x y rows short stays
    rw [draw?_of_stays display stays, draw_eq_drawPixelwise display short stays,
      drawBitwise_eq_drawPixelwise]
  · intro machine x y height rows readable
    have read := Memory.getElem?_of_read readable
    have short : rows.length < 16 := by
      rw [Memory.length_of_read readable]
      exact height.isLt
    have stays := staysInRange_of_bytes machine.v[x] machine.v[y] short
    refine ⟨read, ?_⟩
    rw [Machine.execute_draw readable, draw_eq_drawPixelwise _ (by omega) stays,
      drawBitwise_eq_drawPixelwise]

def atLowerEdge : Machine :=
  { Machine.ofParts 0 (.initial 0x204) (.blank 8 4) (.empty 16) false with
    index := 0x50
    v := Registers.zeros.put 15 3 }

/-- The first and the last row of the digit meet, and its place is given by the flag register. -/
theorem draws_bit_by_bit_atLowerEdge :
    (blank 4 2).draw? (-1) (-3) [0x88, 0x81, 0x40] =
        some ((blank 4 2).drawBitwise (-1) (-3) [0x88, 0x81, 0x40]) ∧
      ((blank 4 2).drawBitwise (-1) (-3) [0x88, 0x81, 0x40]).1.rows = ["..##", "#..."] ∧
      ((blank 4 2).drawBitwise (-1) (-3) [0x88, 0x81, 0x40]).2 = true ∧
      ∃ next, atLowerEdge.execute ⟨.draw, (15, 15, 5)⟩ = .ok next ∧
        next.display.rows = ["...#..#.", "...#..#.", "...#..#.", "........"] ∧
        next.v[(15 : Register)] = 1 := by
  have stays : StaysInRange (-1) (-3) [0x88, 0x81, 0x40] :=
    staysInRange_of_corners (by decide) (by decide) (by decide) (by decide)
  have readable : atLowerEdge.memory.read atLowerEdge.index.toNat (5 : Nibble).val =
      .ok [0xF0, 0x90, 0x90, 0x90, 0xF0] := by
    decide +kernel
  have drawn := (draws_bit_by_bit.2 atLowerEdge 15 15 5 _ readable).2
  refine ⟨draws_bit_by_bit.1 _ _ _ _ (by decide) stays, ?_, ?_, _, drawn, ?_, ?_⟩
  all_goals decide +kernel

end Chip8.Display
