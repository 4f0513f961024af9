import Chip8.Display

/-!
# Drawing pixel by pixel

A sprite can also be drawn by taking its set pixels one after the other: each toggles the pixel it
hits, and the drawing collides if one of them finds its pixel lit. Here coordinates wrap on the
screen only.
-/

namespace Chip8.Display

def flip (display : Display) (column row : Nat) : Display where
  width := display.width
  height := display.height
  pixels := display.pixels.modify (display.index column row) (!·)
  size_pixels := by rw [Array.size_modify, display.size_pixels]

/-- Toggle the pixels at given offsets one after the other, and report whether one was lit when
its turn came. -/
def flipAll (display : Display) (x y : Int) : List (Nat × Nat) → Display × Bool
  | [] => (display, false)
  | (column, row) :: rest =>
      let column := ((x + column) % display.width).toNat
      let row := ((y + row) % display.height).toNat
      let (drawn, collided) := (display.flip column row).flipAll x y rest
      (drawn, display.isLit column row || collided)

def drawPixelwise (display : Display) (x y : Int) (rows : List UInt8) : Display × Bool :=
  display.flipAll x y (Sprite.offsets rows)

end Chip8.Display
