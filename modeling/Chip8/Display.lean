import Chip8.Signed32
import Chip8.Size
import Chip8.Sprite

/-!
# The display

A grid of pixels, each lit or not. A sprite is drawn by toggling the pixels it hits, with
wraparound on both axes; on a small screen a sprite may hit one pixel several times. Drawing counts
the hits of each pixel: a pixel toggles if the count is odd, and the drawing collides if a hit
finds its pixel lit, that is, if a lit pixel is hit at all or an unlit one more than once.
-/

namespace Chip8

structure Display where
  width : Nat
  height : Nat
  pixels : Array Bool
  size_pixels : pixels.size = width * height

namespace Display

def standardWidth : Nat := 64

def standardHeight : Nat := 32

def blank (width height : Nat) : Display where
  width := width
  height := height
  pixels := Array.replicate (width * height) false
  size_pixels := Array.size_replicate

def create (width height : Int) : Except SizeError Display :=
  match checkedSize width, checkedSize height with
  | .error error, _ => .error error
  | .ok _, .error error => .error error
  | .ok width, .ok height => .ok (blank width height)

def clear (display : Display) : Display := blank display.width display.height

/-! ## Looking at pixels -/

def index (display : Display) (column row : Nat) : Nat := column * display.height + row

def isLit (display : Display) (column row : Nat) : Bool :=
  display.pixels[display.index column row]?.getD false

def litCount (display : Display) : Nat := display.pixels.count true

/-- Whether the pixel at coordinates of any size is lit. A screen without pixels has no answer. -/
def pixel? (display : Display) (x y : Int) : Option Bool :=
  if display.width = 0 ∨ display.height = 0 then
    none
  else
    some (display.isLit (x % display.width).toNat (y % display.height).toNat)

def rowText (display : Display) (row : Nat) : String :=
  String.ofList <| (List.range display.width).map fun column =>
    if display.isLit column row then '#' else '.'

def rows (display : Display) : List String :=
  (List.range display.height).map display.rowText

/-! ## Drawing -/

/-- A coordinate with an offset on an axis of the given size. Sums wrap in 32 bits before they wrap
on the screen. -/
def coordinate (size : Nat) (origin : Int) (offset : Nat) : Nat :=
  (Signed32.wrap (origin + offset) % size).toNat

def targets (display : Display) (x y : Int) (rows : List UInt8) : List Nat :=
  (Sprite.offsets rows).map fun (column, row) =>
    display.index (coordinate display.width x column) (coordinate display.height y row)

/-- Count a hit, in 32 bits. -/
def hit (hits : Array Int) (target : Nat) : Array Int :=
  hits.modify target fun count => Signed32.wrap (count + 1)

def tally (size : Nat) (targets : List Nat) : Array Int :=
  targets.foldl hit (Array.replicate size 0)

def toggle (display : Display) (hits : Array Int) : Display where
  width := display.width
  height := display.height
  pixels := display.pixels.mapIdx fun place lit => lit ^^ (hits[place]?.getD 0) % 2 == 1
  size_pixels := by rw [Array.size_mapIdx, display.size_pixels]

def collides (display : Display) (hits : Array Int) : Bool :=
  display.pixels.zipIdx.any fun (lit, place) =>
    let count := hits[place]?.getD 0
    lit && count > 0 || count > 1

def draw (display : Display) (x y : Int) (rows : List UInt8) : Display × Bool :=
  let hits := tally display.pixels.size (display.targets x y rows)
  (display.toggle hits, display.collides hits)

theorem ext_pixels {left right : Display} (width : left.width = right.width)
    (height : left.height = right.height) (pixels : left.pixels = right.pixels) : left = right := by
  cases left
  cases right
  cases width
  cases height
  cases pixels
  rfl

/-- Draw a sprite at coordinates from a host, which must have a signed form of 32 bits. A sprite
without rows is never refused. -/
def draw? (display : Display) (x y : Int) (rows : List UInt8) : Option (Display × Bool) :=
  if rows = [] then
    some (display, false)
  else if Signed32.Fits x ∧ Signed32.Fits y then
    some (display.draw x y rows)
  else
    none

end Display

end Chip8
