import Chip8.Machine

/-!
# Building machines

The options of a new machine. Sizes and the seed are given by a host and may be any integers, so
building can be refused; the first part that cannot be built decides.
-/

namespace Chip8

structure Options where
  seed : Int := 0
  memorySize : Int := Memory.standardSize
  stackDepth : Int := CallStack.standardDepth
  width : Int := Display.standardWidth
  height : Int := Display.standardHeight
  shiftUsesY : Bool := false
  deriving DecidableEq, Repr

inductive BuildError
  | seed (seed : Int)
  | size (error : SizeError)
  deriving DecidableEq, Repr

namespace Machine

/-- A machine made of its parts, at rest at the first address of a standard image. -/
def ofParts (seed : Int) (memory : Memory) (display : Display) (stack : CallStack)
    (shiftUsesY : Bool) : Machine where
  memory := memory
  pc := UInt16.ofNat Variant.standard.base
  display := display
  stack := stack
  delay := 0
  sound := 0
  keypad := .released
  v := .zeros
  index := 0
  waiting := none
  random := .ofSeed seed
  shiftUsesY := shiftUsesY

def ofOptions (options : Options) : Except SizeError Machine := do
  let memory ← Memory.create options.memorySize
  let display ← Display.create options.width options.height
  let stack ← CallStack.create options.stackDepth
  return ofParts options.seed memory display stack options.shiftUsesY

/-- Build a machine. The seed is looked at before the sizes. -/
def build (options : Options) : Except BuildError Machine :=
  if RandomKey.SeedFits options.seed then
    (ofOptions options).mapError .size
  else
    .error (.seed options.seed)

def standard (seed : Int) : Machine :=
  ofParts seed (.initial Memory.standardSize)
    (.blank Display.standardWidth Display.standardHeight) (.empty CallStack.standardDepth) false

/-- Build a machine of standard sizes whose memory is all zeros, without a font. -/
def buildBare (seed : Int) : Except BuildError Machine :=
  if RandomKey.SeedFits seed then
    .ok { standard seed with memory := .zeros Memory.standardSize }
  else
    .error (.seed seed)

end Machine

end Chip8
