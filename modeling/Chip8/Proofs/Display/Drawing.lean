import Chip8.Display.Pixelwise
import Chip8.Machine.Execute
import Chip8.Proofs.Display.Sprites
import Chip8.Proofs.Memory.CheckedStore
import Mathlib.Algebra.Group.Nat.Defs

/-! # Drawing place by place

Drawing counts the hits of every place on the screen. The same comes of toggling the places that
are hit one after the other: a place ends up toggled if it is hit an odd number of times, and one
of the hits finds its place lit if some place is lit or hit more than once in all. Counts of 32 bits
tell odd from even whatever they wrap to, but report collisions only as far as they do not wrap.
-/

namespace Chip8

namespace Display

open Signed32 (Fits)

variable {display : Display} {place : Nat} {places : List Nat}

/-! ## Pixels that are hit -/

def toggled (lit : Bool) (hits : Nat) : Bool := lit ^^ hits % 2 == 1

@[simp] theorem toggled_zero (lit : Bool) : toggled lit 0 = lit := by
  simp [toggled]

@[simp] theorem toggled_one (lit : Bool) : toggled lit 1 = !lit := by
  simp [toggled]

@[simp] theorem toggled_toggled (lit : Bool) (first second : Nat) :
    toggled (toggled lit first) second = toggled lit (first + second) := by
  rcases Nat.mod_two_eq_zero_or_one first with firstEven | firstOdd <;>
    rcases Nat.mod_two_eq_zero_or_one second with secondEven | secondOdd <;>
    simp [toggled, Nat.add_mod, *]

theorem toNat_toggled (lit : Bool) (hits : Nat) :
    (toggled lit hits).toNat = (lit.toNat + hits) % 2 := by
  rcases Nat.mod_two_eq_zero_or_one hits with even | odd <;>
    cases lit <;> simp [toggled, Nat.add_mod, *]

theorem toggled_add_self (lit : Bool) (hits : Nat) : toggled lit (hits + hits) = lit := by
  have even : (hits + hits) % 2 = 0 := by omega
  simp [toggled, even]

/-! ## Toggling places -/

theorem ext_getElem? {left right : Display} (width : left.width = right.width)
    (height : left.height = right.height)
    (pixels : ∀ place : Nat, left.pixels[place]? = right.pixels[place]?) : left = right :=
  ext_pixels width height (Array.ext_getElem? pixels)

def isLitAt (display : Display) (place : Nat) : Bool := display.pixels[place]?.getD false

def flipAt (display : Display) (place : Nat) : Display where
  width := display.width
  height := display.height
  pixels := display.pixels.modify place (!·)
  size_pixels := by rw [Array.size_modify, display.size_pixels]

def flipEach (display : Display) : List Nat → Display × Bool
  | [] => (display, false)
  | place :: rest =>
      let (drawn, collided) := (display.flipAt place).flipEach rest
      (drawn, display.isLitAt place || collided)

@[simp] theorem size_flipAt (display : Display) (place : Nat) :
    (display.flipAt place).pixels.size = display.pixels.size := Array.size_modify

theorem isLitAt_eq_true_iff :
    display.isLitAt place = true ↔ display.pixels[place]? = some true := by
  cases found : display.pixels[place]? <;> simp [isLitAt, found]

theorem count_cons (head : Nat) (rest : List Nat) (place : Nat) :
    (head :: rest).count place = [head].count place + rest.count place := by
  rw [← List.count_append, List.singleton_append]

theorem getElem?_flipAt (display : Display) (place other : Nat) :
    (display.flipAt place).pixels[other]? =
      display.pixels[other]?.map (toggled · ([place].count other)) := by
  by_cases same : place = other <;> simp [flipAt, Array.getElem?_modify, same]

@[simp] theorem width_flipEach (display : Display) (places : List Nat) :
    (display.flipEach places).1.width = display.width := by
  induction places generalizing display with
  | nil => rfl
  | cons place rest induction => exact induction (display.flipAt place)

@[simp] theorem height_flipEach (display : Display) (places : List Nat) :
    (display.flipEach places).1.height = display.height := by
  induction places generalizing display with
  | nil => rfl
  | cons place rest induction => exact induction (display.flipAt place)

theorem getElem?_flipEach (display : Display) (places : List Nat) (place : Nat) :
    (display.flipEach places).1.pixels[place]? =
      display.pixels[place]?.map (toggled · (places.count place)) := by
  induction places generalizing display with
  | nil => simp [flipEach]
  | cons head rest induction =>
      simp [flipEach, induction, getElem?_flipAt, count_cons head rest, Function.comp_def]

theorem flipEach_append (display : Display) (first second : List Nat) :
    display.flipEach (first ++ second) =
      (((display.flipEach first).1.flipEach second).1,
        (display.flipEach first).2 || ((display.flipEach first).1.flipEach second).2) := by
  induction first generalizing display with
  | nil => simp [flipEach]
  | cons place rest induction => simp [flipEach, induction, Bool.or_assoc]

/-! ## Collisions -/

/-- Some place is hit more than once in all, where being lit counts as a hit. -/
def Collides (display : Display) (places : List Nat) : Prop :=
  ∃ place lit, display.pixels[place]? = some lit ∧ 1 < lit.toNat + places.count place

theorem not_collides_nil (display : Display) : ¬display.Collides [] := by
  rintro ⟨place, lit, _, twice⟩
  cases lit <;> simp at twice

theorem collides_cons_iff {rest : List Nat} :
    display.Collides (place :: rest) ↔
      display.isLitAt place = true ∨ (display.flipAt place).Collides rest := by
  constructor
  · rintro ⟨other, lit, found, twice⟩
    by_cases same : place = other
    · subst same
      cases lit with
      | true => exact .inl (by simp [isLitAt, found])
      | false =>
          refine .inr ⟨place, true, by simp [getElem?_flipAt, found], ?_⟩
          simpa using twice
    · refine .inr ⟨other, lit, by simp [getElem?_flipAt, found, same], ?_⟩
      simpa [same] using twice
  · rintro (lit | ⟨other, _, found, twice⟩)
    · exact ⟨place, true, isLitAt_eq_true_iff.mp lit, by simp⟩
    · rw [getElem?_flipAt] at found
      rcases Option.map_eq_some_iff.mp found with ⟨lit, before, rfl⟩
      rw [toNat_toggled] at twice
      refine ⟨other, lit, before, ?_⟩
      rw [count_cons]
      omega

theorem flipEach_collides_iff (display : Display) (places : List Nat) :
    (display.flipEach places).2 = true ↔ display.Collides places := by
  induction places generalizing display with
  | nil => simp [flipEach, not_collides_nil]
  | cons place rest induction =>
      simp only [flipEach, Bool.or_eq_true, induction, collides_cons_iff]

/-! ## Counting in 32 bits -/

theorem getElem?_hit {hits : Array Int} {count : Int} (target : Nat)
    (counted : hits[place]? = some (Signed32.wrap count)) :
    (hit hits target)[place]? = some (Signed32.wrap (count + [target].count place)) := by
  rw [hit, Array.getElem?_modify, counted]
  by_cases same : target = place
  · rw [if_pos same, same, List.count_singleton_self, Option.map_some, Signed32.wrap_add_wrap]
    rfl
  · simp [same]

theorem getElem?_foldl_hit {hits : Array Int} {count : Int} (targets : List Nat)
    (counted : hits[place]? = some (Signed32.wrap count)) :
    (targets.foldl hit hits)[place]? = some (Signed32.wrap (count + targets.count place)) := by
  induction targets generalizing hits count with
  | nil => simpa using counted
  | cons target rest induction =>
      rw [List.foldl_cons, induction (getElem?_hit target counted), count_cons target rest,
        Int.natCast_add, Int.add_assoc]

theorem getElem?_tally {size : Nat} (targets : List Nat) (within : place < size) :
    (tally size targets)[place]? = some (Signed32.wrap (targets.count place)) := by
  have start : (Array.replicate size (0 : Int))[place]? = some (Signed32.wrap 0) := by
    rw [Array.getElem?_replicate, if_pos within]
    rfl
  rw [tally, getElem?_foldl_hit targets start, Int.zero_add]

theorem toggled_wrap (lit : Bool) (hits : Nat) :
    (lit ^^ Signed32.wrap hits % 2 == 1) = toggled lit hits := by
  have parity : (hits : Int) % 2 = 1 ↔ hits % 2 = 1 := by omega
  simp only [toggled, Signed32.wrap_emod_two, beq_eq_decide, parity]

theorem hit_again_iff (lit : Bool) (hits : Nat) :
    (lit && (hits : Int) > 0 || (hits : Int) > 1) = true ↔ 1 < lit.toNat + hits := by
  have some : (hits : Int) > 0 ↔ 0 < hits := by omega
  have several : (hits : Int) > 1 ↔ 1 < hits := by omega
  cases lit with
  | false => simp [several]
  | true =>
      have implied : 1 < hits → 0 < hits := Nat.zero_lt_of_lt
      simpa [some, several] using implied

def Countable (places : List Nat) : Prop := ∀ place, places.count place < 2 ^ 31

theorem countable_of_length (few : places.length < 2 ^ 31) : Countable places := fun _ =>
  Nat.lt_of_le_of_lt List.count_le_length few

theorem countable_of_nodup (separate : places.Nodup) : Countable places := fun place =>
  Nat.lt_of_le_of_lt (List.nodup_iff_count_le_one.mp separate place) (by decide)

theorem Countable.wrap_count (countable : Countable places) (place : Nat) :
    Signed32.wrap (places.count place) = places.count place := by
  apply Signed32.wrap_eq_self
  have few := countable place
  unfold Fits
  omega

theorem collides_tally_iff (display : Display) (countable : Countable places) :
    display.collides (tally display.pixels.size places) = true ↔ display.Collides places := by
  rw [collides, Array.any_eq_true]
  constructor
  · rintro ⟨place, within, twice⟩
    have inside : place < display.pixels.size := by simpa using within
    refine ⟨place, display.pixels[place], Array.getElem?_eq_getElem inside, ?_⟩
    rw [← hit_again_iff]
    simpa [getElem?_tally places inside, countable.wrap_count] using twice
  · rintro ⟨place, lit, found, twice⟩
    rcases Array.getElem?_eq_some_iff.mp found with ⟨inside, rfl⟩
    refine ⟨place, by simpa using inside, ?_⟩
    rw [← hit_again_iff] at twice
    simpa [getElem?_tally places inside, countable.wrap_count] using twice

/-! ## Drawing -/

theorem getElem?_toggle (display : Display) (hits : Array Int) (place : Nat) :
    (display.toggle hits).pixels[place]? =
      display.pixels[place]?.map fun lit => lit ^^ (hits[place]?.getD 0) % 2 == 1 :=
  Array.getElem?_mapIdx

theorem getElem?_draw (display : Display) (x y : Int) (rows : List UInt8) (place : Nat) :
    (display.draw x y rows).1.pixels[place]? =
      display.pixels[place]?.map (toggled · ((display.targets x y rows).count place)) := by
  rw [draw, getElem?_toggle]
  by_cases inside : place < display.pixels.size
  · have counted := getElem?_tally (display.targets x y rows) inside
    rw [counted, Option.getD_some]
    exact congrArg (Option.map · _) (funext fun lit => toggled_wrap lit _)
  · rw [Array.getElem?_eq_none (Nat.le_of_not_lt inside), Option.map_none, Option.map_none]

/-- The screen does not depend on whether the hits can be counted. -/
theorem draw_fst_eq_flipEach (display : Display) (x y : Int) (rows : List UInt8) :
    (display.draw x y rows).1 = (display.flipEach (display.targets x y rows)).1 := by
  apply ext_getElem?
  · exact (width_flipEach display _).symm
  · exact (height_flipEach display _).symm
  · intro place
    rw [getElem?_draw, getElem?_flipEach]

theorem draw_eq_flipEach (display : Display) {x y : Int} {rows : List UInt8}
    (countable : Countable (display.targets x y rows)) :
    display.draw x y rows = display.flipEach (display.targets x y rows) := by
  apply Prod.ext
  · exact draw_fst_eq_flipEach display x y rows
  · rw [Bool.eq_iff_iff, flipEach_collides_iff, ← collides_tally_iff display countable]
    rfl

/-- Each row has eight pixels, so a place can be counted if there are fewer than `2 ^ 28` rows. -/
theorem countable_targets (display : Display) (x y : Int) {rows : List UInt8}
    (short : rows.length < 2 ^ 28) : Countable (display.targets x y rows) := by
  apply countable_of_length
  have most := Sprite.length_offsets_le rows
  rw [targets, List.length_map]
  omega

@[simp] theorem targets_flipEach (display : Display) (places : List Nat) (x y : Int)
    (rows : List UInt8) :
    (display.flipEach places).1.targets x y rows = display.targets x y rows := by
  simp [targets, index]

theorem draw?_eq_draw (display : Display) {x y : Int} {rows : List UInt8}
    (fits : rows ≠ [] → Fits x ∧ Fits y) :
    display.draw? x y rows = some (display.draw x y rows) := by
  by_cases empty : rows = []
  · subst empty
    rw [draw?, if_pos rfl, draw_eq_flipEach display (countable_targets display x y (by decide))]
    rfl
  · rw [draw?, if_neg empty, if_pos (fits empty)]

/-! ## Coordinates -/

theorem coordinate_lt {size : Nat} (positive : 1 ≤ size) (origin : Int) (offset : Nat) :
    coordinate size origin offset < size := by
  have positive : (0 : Int) < size := by omega
  have below := Int.emod_lt_of_pos (Signed32.wrap (origin + offset)) positive
  rw [coordinate]
  omega

theorem index_lt {column row : Nat} (columnBound : column < display.width)
    (rowBound : row < display.height) : display.index column row < display.pixels.size := by
  rw [index, display.size_pixels]
  calc column * display.height + row
      < column * display.height + display.height := Nat.add_lt_add_left rowBound _
    _ = (column + 1) * display.height := (Nat.succ_mul _ _).symm
    _ ≤ display.width * display.height := Nat.mul_le_mul_right _ columnBound

theorem lt_of_mem_targets (wide : 1 ≤ display.width) (high : 1 ≤ display.height) {x y : Int}
    {rows : List UInt8} (member : place ∈ display.targets x y rows) :
    place < display.pixels.size := by
  rcases List.mem_map.mp member with ⟨offset, _, rfl⟩
  exact index_lt (coordinate_lt wide _ _) (coordinate_lt high _ _)

def StaysInRange (x y : Int) (rows : List UInt8) : Prop :=
  ∀ column row : Nat, column < 8 → row < rows.length → Fits (x + column) ∧ Fits (y + row)

theorem draw?_of_stays (display : Display) {x y : Int} {rows : List UInt8}
    (stays : StaysInRange x y rows) :
    display.draw? x y rows = some (display.draw x y rows) := by
  apply draw?_eq_draw
  intro nonempty
  simpa using stays 0 0 (by decide) (List.length_pos_iff.mpr nonempty)

theorem coordinate_of_fits {size : Nat} {origin : Int} {offset : Nat}
    (fits : Fits (origin + offset)) :
    coordinate size origin offset = ((origin + offset) % size).toNat := by
  rw [coordinate, Signed32.wrap_eq_self fits]

theorem targets_of_stays (display : Display) {x y : Int} {rows : List UInt8}
    (stays : StaysInRange x y rows) :
    display.targets x y rows = (Sprite.offsets rows).map fun (column, row) =>
      display.index ((x + column) % display.width).toNat ((y + row) % display.height).toNat := by
  apply List.map_congr_left
  rintro ⟨column, row⟩ member
  rcases Sprite.bounds_of_mem_offsets member with ⟨columnBound, rowBound⟩
  rcases stays column row columnBound rowBound with ⟨xFits, yFits⟩
  simp only [coordinate_of_fits xFits, coordinate_of_fits yFits]

theorem staysInRange_of_corners {x y : Int} {rows : List UInt8} (left : Fits x)
    (right : Fits (x + 7)) (top : Fits y) (bottom : Fits (y + rows.length - 1)) :
    StaysInRange x y rows := by
  intro column row columnBound rowBound
  unfold Fits at left right top bottom ⊢
  omega

theorem staysInRange_of_bytes (x y : UInt8) {rows : List UInt8} (short : rows.length < 16) :
    StaysInRange x.toNat y.toNat rows := by
  have xBound := x.toNat_lt
  have yBound := y.toNat_lt
  apply staysInRange_of_corners
  all_goals
    unfold Fits
    omega

end Display

/-! ## The instruction -/

theorem Machine.execute_draw {machine : Machine} {height : Nibble} {rows : List UInt8}
    (readable : machine.memory.read machine.index.toNat height.val = .ok rows) (x y : Register) :
    machine.execute ⟨.draw, (x, y, height)⟩ =
      let (display, collided) := machine.display.draw machine.v[x].toNat machine.v[y].toNat rows
      .ok { machine with
        display
        v := machine.v.put Registers.flagRegister (Alu.flag collided) } := by
  rw [execute, drawSprite, readable]
  rfl

end Chip8
