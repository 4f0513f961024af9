import Chip8.Proofs.Display.Drawing

/-! # Drawing several sprites

A place ends up toggled if all draws together hit it an odd number of times. So the order of draws
does not matter, and drawing everything twice restores the screen.
-/

namespace Chip8.Display

variable {display : Display} {places : List Nat}

/-! ## Orders and repetitions -/

theorem flipEach_eq_of_perm (display : Display) {first second : List Nat}
    (permutation : first.Perm second) :
    (display.flipEach first).1 = (display.flipEach second).1 := by
  apply ext_getElem?
  · simp
  · simp
  · intro place
    rw [getElem?_flipEach, getElem?_flipEach, permutation.count_eq]

theorem flipEach_twice (display : Display) {first second : List Nat}
    (permutation : first.Perm second) : (display.flipEach (first ++ second)).1 = display := by
  apply ext_getElem?
  · simp
  · simp
  · intro place
    simp [getElem?_flipEach, permutation.count_eq, toggled_add_self]

theorem collides_twice_iff (within : ∀ place ∈ places, place < display.pixels.size) :
    display.Collides (places ++ places) ↔ places ≠ [] := by
  constructor
  · rintro ⟨place, lit, _, twice⟩ rfl
    cases lit <;> simp at twice
  · intro nonempty
    rcases List.exists_mem_of_ne_nil places nonempty with ⟨place, member⟩
    have hit : 0 < places.count place := List.count_pos_iff.mpr member
    refine ⟨place, _, Array.getElem?_eq_getElem (within place member), ?_⟩
    rw [List.count_append]
    omega

theorem targets_eq_nil_iff {x y : Int} {rows : List UInt8} :
    display.targets x y rows = [] ↔ ∀ row ∈ rows, row = 0 := by
  rw [targets, List.map_eq_nil_iff]
  exact Sprite.offsetsFrom_eq_nil_iff

/-! ## Placements -/

structure Placement where
  x : Int
  y : Int
  rows : List UInt8

def Placement.Fits (placement : Placement) : Prop :=
  Signed32.Fits placement.x ∧ Signed32.Fits placement.y

def drawAll? (display : Display) : List Placement → Option Display
  | [] => some display
  | placement :: rest =>
      (display.draw? placement.x placement.y placement.rows).bind fun drawn =>
        drawn.1.drawAll? rest

def allTargets (display : Display) (placements : List Placement) : List Nat :=
  placements.flatMap fun placement => display.targets placement.x placement.y placement.rows

theorem allTargets_flipEach (display : Display) (places : List Nat) (placements : List Placement) :
    (display.flipEach places).1.allTargets placements = display.allTargets placements := by
  simp [allTargets]

theorem draw?_of_fits (display : Display) {x y : Int} {rows : List UInt8}
    (xFits : Signed32.Fits x) (yFits : Signed32.Fits y) (short : rows.length < 2 ^ 28) :
    display.draw? x y rows = some (display.flipEach (display.targets x y rows)) := by
  rw [draw?_eq_draw display fun _ => ⟨xFits, yFits⟩,
    draw_eq_flipEach display (countable_targets display x y short)]

theorem drawAll?_eq (display : Display) {placements : List Placement}
    (fits : ∀ placement ∈ placements, placement.Fits) :
    display.drawAll? placements = some (display.flipEach (display.allTargets placements)).1 := by
  induction placements generalizing display with
  | nil => rfl
  | cons placement rest induction =>
      rw [List.forall_mem_cons] at fits
      rw [drawAll?, draw?_eq_draw display fun _ => fits.1, Option.bind_some,
        draw_fst_eq_flipEach, induction _ fits.2, allTargets_flipEach]
      simp [allTargets, flipEach_append]

/-! ## Main statements -/

theorem drawAll?_of_perm (display : Display) {first second : List Placement}
    (permutation : first.Perm second) (fits : ∀ placement ∈ second, placement.Fits) :
    display.drawAll? first = display.drawAll? second := by
  have firstFits : ∀ placement ∈ first, placement.Fits := fun placement member =>
    fits placement (permutation.mem_iff.mp member)
  rw [drawAll?_eq display firstFits, drawAll?_eq display fits]
  exact congrArg some (flipEach_eq_of_perm display (permutation.flatMap_right _))

theorem drawAll?_twice (display : Display) {first second : List Placement}
    (permutation : first.Perm second) (fits : ∀ placement ∈ second, placement.Fits) :
    display.drawAll? (first ++ second) = some display := by
  have allFit : ∀ placement ∈ first ++ second, placement.Fits := by
    intro placement member
    rcases List.mem_append.mp member with member | member
    · exact fits placement (permutation.mem_iff.mp member)
    · exact fits placement member
  rw [drawAll?_eq display allFit, allTargets, List.flatMap_append]
  exact congrArg some (flipEach_twice display (permutation.flatMap_right _))

theorem draw?_twice {x y : Int} (wide : 1 ≤ display.width) (high : 1 ≤ display.height)
    {rows : List UInt8} (short : rows.length < 2 ^ 28) (xFits : Signed32.Fits x)
    (yFits : Signed32.Fits y) :
    ∃ drawn first second, display.draw? x y rows = some (drawn, first) ∧
      drawn.draw? x y rows = some (display, second) ∧
      ((first = true ∨ second = true) ↔ ∃ row ∈ rows, row ≠ 0) := by
  let places := display.targets x y rows
  let once := display.flipEach places
  have restored : (once.1.flipEach places).1 = display := by
    have both := flipEach_twice display (List.Perm.refl places)
    rwa [flipEach_append] at both
  have collided : (once.2 = true ∨ (once.1.flipEach places).2 = true) ↔ places ≠ [] := by
    rw [← collides_twice_iff fun place => lt_of_mem_targets wide high, ← flipEach_collides_iff,
      flipEach_append, Bool.or_eq_true]
  refine ⟨once.1, once.2, (once.1.flipEach places).2, ?_, ?_, ?_⟩
  · exact draw?_of_fits display xFits yFits short
  · rw [draw?_of_fits once.1 xFits yFits short, targets_flipEach]
    exact congrArg some (Prod.ext restored rfl)
  · rw [collided, Ne, targets_eq_nil_iff]
    simp

/-- The order of draws does not matter, and drawing everything twice restores the screen. When a
single sprite is drawn twice, one of the draws collides unless the sprite has no pixels. -/
theorem draws_commute_and_cancel (display : Display) (placements : List Placement)
    (fits : ∀ placement ∈ placements, placement.Fits) :
    (∃ final, ∀ order, order.Perm placements → display.drawAll? order = some final) ∧
      (∀ first second, first.Perm placements → second.Perm placements →
        display.drawAll? (first ++ second) = some display) ∧
      ∀ (x y : Int) (rows : List UInt8), 1 ≤ display.width → 1 ≤ display.height →
        rows.length < 2 ^ 28 → Signed32.Fits x → Signed32.Fits y →
        ∃ drawn first second, display.draw? x y rows = some (drawn, first) ∧
          drawn.draw? x y rows = some (display, second) ∧
          ((first = true ∨ second = true) ↔ ∃ row ∈ rows, row ≠ 0) := by
  refine ⟨⟨(display.flipEach (display.allTargets placements)).1, ?_⟩, ?_, ?_⟩
  · intro order permutation
    rw [drawAll?_of_perm display permutation fits, drawAll?_eq display fits]
  · intro first second firstPermutation secondPermutation
    apply drawAll?_twice display (firstPermutation.trans secondPermutation.symm)
    intro placement member
    exact fits placement (secondPermutation.mem_iff.mp member)
  · intro x y rows wide high short xFits yFits
    exact draw?_twice wide high short xFits yFits

def meetingPlacements : List Placement := [⟨-1, 5, [0xF0, 0x90]⟩, ⟨2, 1, [0xFF]⟩]

theorem draws_commute_and_cancel_meeting :
    (∃ final, (blank 4 3).drawAll? meetingPlacements = some final ∧
        (blank 4 3).drawAll? meetingPlacements.reverse = some final) ∧
      (blank 4 3).drawAll? (meetingPlacements ++ meetingPlacements.reverse) =
        some (blank 4 3) ∧
      ∃ drawn first second, (blank 4 3).draw? 2147483647 0 [0x80, 0x01] = some (drawn, first) ∧
        drawn.draw? 2147483647 0 [0x80, 0x01] = some (blank 4 3, second) ∧
        (first = true ∨ second = true) := by
  have fits : ∀ placement ∈ meetingPlacements, placement.Fits := by
    simp [meetingPlacements, Placement.Fits, Signed32.Fits]
  have reversed := meetingPlacements.reverse_perm
  rcases draws_commute_and_cancel (blank 4 3) meetingPlacements fits with
    ⟨⟨final, orders⟩, cancel, twice⟩
  refine ⟨⟨final, orders _ (.refl _), orders _ reversed⟩, cancel _ _ (.refl _) reversed, ?_⟩
  rcases twice 2147483647 0 [0x80, 0x01] (by decide) (by decide) (by decide) (by decide)
    (by decide) with ⟨drawn, first, second, once, again, collided⟩
  exact ⟨drawn, first, second, once, again, collided.mpr ⟨0x80, by decide⟩⟩

end Chip8.Display
