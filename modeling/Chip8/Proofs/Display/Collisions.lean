import Chip8.Machine.Options
import Chip8.Proofs.Display.Drawing

/-! # Collisions and lit pixels

Every hit lights a pixel or puts one out, and the hits that put one out are those that collide. So
a drawing collides if it leaves fewer pixels lit than were lit before and set in the sprite
together. Where no two bits of the sprite meet, it collides if some pixel is put out for good.
-/

namespace Chip8

theorem Alu.flag_eq_one_iff (condition : Bool) : flag condition = 1 ↔ condition = true := by
  cases condition <;> decide

namespace Display

variable {display : Display} {place : Nat} {places : List Nat} {x y : Int} {rows : List UInt8}

/-! ## Counting lit pixels -/

theorem litCount_flipAt (within : place < display.pixels.size) :
    (display.flipAt place).litCount + 2 * (display.isLitAt place).toNat = display.litCount + 1 := by
  have written : (display.flipAt place).pixels =
      display.pixels.set place (!display.pixels[place]) within := by
    apply Array.ext_getElem?
    intro other
    by_cases same : place = other
    · subst same
      simp [flipAt, Array.getElem_modify, within]
    · simp [flipAt, Array.getElem?_modify, same]
  rw [litCount, litCount, written, Array.count_set, isLitAt, Array.getElem?_eq_getElem within]
  cases lit : display.pixels[place] with
  | false => simp
  | true =>
      have counted : 0 < display.pixels.count true :=
        Array.count_pos_iff.mpr (lit ▸ Array.getElem_mem within)
      simp
      omega

/-- Each clash is a hit that puts out a pixel, where another would have lit one. -/
theorem litCount_flipEach (display : Display)
    (within : ∀ place ∈ places, place < display.pixels.size) :
    ∃ clashes, (display.flipEach places).1.litCount + 2 * clashes =
        display.litCount + places.length ∧
      ((display.flipEach places).2 = true ↔ 0 < clashes) := by
  induction places generalizing display with
  | nil => exact ⟨0, rfl, by simp [flipEach]⟩
  | cons place rest induction =>
      rw [List.forall_mem_cons] at within
      have head := litCount_flipAt within.1
      rcases induction (display.flipAt place) (by simpa using within.2) with ⟨clashes, total, clash⟩
      refine ⟨(display.isLitAt place).toNat + clashes, ?_, ?_⟩
      · rw [List.length_cons]
        change ((display.flipAt place).flipEach rest).1.litCount + _ = _
        omega
      · rw [flipEach, Bool.or_eq_true, clash, Nat.add_pos_iff_pos_or_pos]
        cases display.isLitAt place <;> simp

/-! ## Bits that do not meet -/

theorem eq_of_emod_eq {size left right : Nat} {origin : Int} (leftBound : left < size)
    (rightBound : right < size)
    (same : ((origin + left) % size).toNat = ((origin + right) % size).toNat) : left = right := by
  have leftPositive := Int.emod_nonneg (origin + left) (b := size) (by omega)
  have rightPositive := Int.emod_nonneg (origin + right) (b := size) (by omega)
  have equal : (origin + left) % size = (origin + right) % size := by omega
  have divides := Int.dvd_of_emod_eq_zero (Int.emod_eq_emod_iff_emod_sub_eq_zero.mp equal)
  have zero := Int.eq_zero_of_dvd_of_natAbs_lt_natAbs divides (by omega)
  omega

theorem index_injective {column row otherColumn otherRow : Nat} (below : row < display.height)
    (otherBelow : otherRow < display.height)
    (same : display.index column row = display.index otherColumn otherRow) :
    column = otherColumn ∧ row = otherRow := by
  have high : 0 < display.height := Nat.zero_lt_of_lt below
  have quotients := congrArg (· / display.height) same
  have remainders := congrArg (· % display.height) same
  simp only [index, Nat.mul_comm _ display.height, Nat.mul_add_div high, Nat.mul_add_mod,
    Nat.div_eq_of_lt below, Nat.div_eq_of_lt otherBelow, Nat.mod_eq_of_lt below,
    Nat.mod_eq_of_lt otherBelow, Nat.add_zero] at quotients remainders
  exact ⟨quotients, remainders⟩

theorem exists_index_eq (within : place < display.pixels.size) :
    ∃ column row, column < display.width ∧ row < display.height ∧
      display.index column row = place := by
  rw [display.size_pixels] at within
  have high : 0 < display.height := by
    apply Nat.pos_of_ne_zero
    intro flat
    simp [flat] at within
  refine ⟨place / display.height, place % display.height, ?_, Nat.mod_lt _ high, ?_⟩
  · exact Nat.div_lt_of_lt_mul (Nat.mul_comm _ _ ▸ within)
  · rw [index, Nat.mul_comm]
    exact Nat.div_add_mod _ _

theorem nodup_targets (wide : 8 ≤ display.width) (high : rows.length ≤ display.height)
    (stays : StaysInRange x y rows) : (display.targets x y rows).Nodup := by
  refine List.Nodup.map_on ?_ (Sprite.nodup_offsets rows)
  rintro ⟨column, row⟩ member ⟨otherColumn, otherRow⟩ otherMember same
  rcases Sprite.bounds_of_mem_offsets member with ⟨within, below⟩
  rcases Sprite.bounds_of_mem_offsets otherMember with ⟨otherWithin, otherBelow⟩
  rw [Sprite.rowWidth] at within otherWithin
  rcases stays column row within below with ⟨xFits, yFits⟩
  rcases stays otherColumn otherRow otherWithin otherBelow with ⟨otherXFits, otherYFits⟩
  have tall : 1 ≤ display.height := by omega
  rcases index_injective (coordinate_lt tall _ _) (coordinate_lt tall _ _) same with
    ⟨columns, lines⟩
  rw [coordinate_of_fits xFits, coordinate_of_fits otherXFits] at columns
  rw [coordinate_of_fits yFits, coordinate_of_fits otherYFits] at lines
  have sameColumn : column = otherColumn := eq_of_emod_eq (by omega) (by omega) columns
  have sameRow : row = otherRow := eq_of_emod_eq (by omega) (by omega) lines
  rw [sameColumn, sameRow]

def Darkens (before after : Display) : Prop :=
  ∃ column row, column < before.width ∧ row < before.height ∧
    before.isLit column row = true ∧ after.isLit column row = false

theorem toggled_true_eq_false_iff (hits : Nat) : toggled true hits = false ↔ hits % 2 = 1 := by
  simp [toggled]

theorem darkens_flipEach_iff :
    display.Darkens (display.flipEach places).1 ↔
      ∃ place, display.pixels[place]? = some true ∧ places.count place % 2 = 1 := by
  have lookup (column row : Nat) : (display.flipEach places).1.isLit column row =
      (display.pixels[display.index column row]?.map
        (toggled · (places.count (display.index column row)))).getD false := by
    rw [← getElem?_flipEach]
    simp [isLit, index]
  constructor
  · rintro ⟨column, row, _, _, lit, out⟩
    have found : display.pixels[display.index column row]? = some true := isLitAt_eq_true_iff.mp lit
    refine ⟨_, found, ?_⟩
    rw [← toggled_true_eq_false_iff]
    simpa [lookup, found] using out
  · rintro ⟨place, lit, odd⟩
    rcases Array.getElem?_eq_some_iff.mp lit with ⟨within, _⟩
    rcases exists_index_eq within with ⟨column, row, columnBound, rowBound, rfl⟩
    refine ⟨column, row, columnBound, rowBound, isLitAt_eq_true_iff.mpr lit, ?_⟩
    rw [← toggled_true_eq_false_iff] at odd
    simp [lookup, lit, odd]

/-- Where no place is hit twice, hits that collide put out a pixel for good. -/
theorem collides_iff_darkens (separate : places.Nodup) :
    display.Collides places ↔ display.Darkens (display.flipEach places).1 := by
  rw [darkens_flipEach_iff]
  have once := List.nodup_iff_count_le_one.mp separate
  constructor
  · rintro ⟨place, lit, found, twice⟩
    have most := once place
    cases lit with
    | false =>
        rw [Bool.toNat_false] at twice
        omega
    | true =>
        rw [Bool.toNat_true] at twice
        exact ⟨place, found, by omega⟩
  · rintro ⟨place, found, odd⟩
    refine ⟨place, true, found, ?_⟩
    rw [Bool.toNat_true]
    omega

/-! ## Main statement -/

theorem draw_balance (wide : 1 ≤ display.width) (high : 1 ≤ display.height) (x y : Int)
    (rows : List UInt8) :
    ∃ clashes, (display.draw x y rows).1.litCount + 2 * clashes =
        display.litCount + Sprite.bitCount rows ∧
      (rows.length < 2 ^ 28 → ((display.draw x y rows).2 = true ↔ 0 < clashes)) := by
  have bits : (display.targets x y rows).length = Sprite.bitCount rows := by
    rw [targets, List.length_map]
    exact Sprite.length_offsetsFrom 0 rows
  have within : ∀ place ∈ display.targets x y rows, place < display.pixels.size :=
    fun place => lt_of_mem_targets wide high
  rcases litCount_flipEach display within with ⟨clashes, balance, collided⟩
  refine ⟨clashes, ?_, ?_⟩
  · rw [draw_fst_eq_flipEach, balance, bits]
  · intro short
    rw [draw_eq_flipEach display (countable_targets display x y short), collided]

theorem draw_collides_iff_darkens (wide : 8 ≤ display.width) (high : rows.length ≤ display.height)
    (stays : StaysInRange x y rows) :
    (display.draw x y rows).2 = true ↔ display.Darkens (display.draw x y rows).1 := by
  have separate := nodup_targets wide high stays
  rw [draw_eq_flipEach display (countable_of_nodup separate), flipEach_collides_iff]
  exact collides_iff_darkens separate

/-- A drawing collides if it leaves fewer pixels lit than were lit before and set in the sprite
together; the difference is always even. If no bits of the sprite can meet, it collides if some
pixel is put out, and so the instruction sets its flag on screens that are large enough. -/
theorem collides_iff_fewer_lit :
    (∀ (display : Display) (x y : Int) (rows : List UInt8), 1 ≤ display.width →
      1 ≤ display.height → Signed32.Fits x → Signed32.Fits y →
      ∃ drawn collided, display.draw? x y rows = some (drawn, collided) ∧
        drawn.litCount ≤ display.litCount + Sprite.bitCount rows ∧
        drawn.litCount % 2 = (display.litCount + Sprite.bitCount rows) % 2 ∧
        (rows.length < 2 ^ 28 →
          (collided = true ↔ drawn.litCount < display.litCount + Sprite.bitCount rows)) ∧
        (8 ≤ display.width → rows.length ≤ display.height → StaysInRange x y rows →
          (collided = true ↔ display.Darkens drawn))) ∧
    ∀ (machine : Machine) (x y : Register) (height : Nibble) (rows : List UInt8),
      8 ≤ machine.display.width → 15 ≤ machine.display.height →
      machine.memory.read machine.index.toNat height.val = .ok rows →
      ∃ next, machine.execute ⟨.draw, (x, y, height)⟩ = .ok next ∧
        (next.v[Registers.flagRegister] = 1 ↔ machine.display.Darkens next.display) := by
  constructor
  · intro display x y rows wide high xFits yFits
    rcases draw_balance wide high x y rows with ⟨clashes, balance, collided⟩
    refine ⟨(display.draw x y rows).1, (display.draw x y rows).2, ?_, ?_, ?_, ?_, ?_⟩
    · exact draw?_eq_draw display fun _ => ⟨xFits, yFits⟩
    · omega
    · omega
    · intro short
      rw [collided short]
      omega
    · exact draw_collides_iff_darkens
  · intro machine x y height rows wide high readable
    have short : rows.length < 16 := by
      rw [Memory.length_of_read readable]
      exact height.isLt
    have stays := staysInRange_of_bytes machine.v[x] machine.v[y] short
    refine ⟨_, Machine.execute_draw readable x y, ?_⟩
    rw [Registers.getElem_put, if_pos rfl, Alu.flag_eq_one_iff]
    exact draw_collides_iff_darkens wide (by omega) stays

def litEdge : Display := (blank 8 15).flip 7 0

def atLitEdge : Machine :=
  { Machine.ofParts 0 (.initial 0x204) litEdge (.empty 16) false with
    index := 0x50
    v := Registers.zeros.put 1 4 }

theorem collides_iff_fewer_lit_atLitEdge :
    (∃ drawn, litEdge.draw? 4 0 [0xF0] = some (drawn, true) ∧
        drawn.litCount < 5 ∧ drawn.litCount % 2 = 1 ∧ litEdge.Darkens drawn) ∧
      ∃ next, atLitEdge.execute ⟨.draw, (1, 0, 5)⟩ = .ok next ∧ litEdge.Darkens next.display := by
  have states : 8 ≤ litEdge.width ∧ 15 ≤ litEdge.height ∧ litEdge.litCount = 1 ∧
      atLitEdge.memory.read atLitEdge.index.toNat (5 : Nibble).val =
        .ok [0xF0, 0x90, 0x90, 0x90, 0xF0] := by
    decide +kernel
  rcases states with ⟨wide, high, one, readable⟩
  constructor
  · have stays : StaysInRange 4 0 [0xF0] :=
      staysInRange_of_corners (by decide) (by decide) (by decide) (by decide)
    have short : [0xF0].length ≤ litEdge.height := Nat.le_trans (by decide) high
    rcases collides_iff_fewer_lit.1 litEdge 4 0 [0xF0] (Nat.le_trans (by decide) wide)
      (Nat.le_trans (by decide) high) (by decide) (by decide) with
      ⟨drawn, collided, drew, _, parity, fewer, darkens⟩
    have collides : (litEdge.draw? 4 0 [0xF0]).map (·.2) = some true := by
      rw [draw?_of_stays litEdge stays,
        draw_eq_flipEach litEdge (countable_targets _ _ _ (by decide))]
      decide +kernel
    rw [drew] at collides
    cases collides
    have bits : Sprite.bitCount [0xF0] = 4 := by decide
    rw [one, bits] at parity fewer
    exact ⟨drawn, drew, (fewer (by decide)).mp rfl, parity, (darkens wide short stays).mp rfl⟩
  · rcases collides_iff_fewer_lit.2 atLitEdge 1 0 5 _ wide high readable with ⟨next, drew, flag⟩
    have flagged :
        (atLitEdge.execute ⟨.draw, (1, 0, 5)⟩).map (·.v[Registers.flagRegister]) = .ok 1 := by
      rw [Machine.execute_draw readable,
        draw_eq_flipEach _ (countable_targets _ _ _ (by decide))]
      decide +kernel
    rw [drew] at flagged
    exact ⟨next, drew, flag.mp (Except.ok.inj flagged)⟩

end Display

end Chip8
