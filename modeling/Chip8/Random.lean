/-!
# Random bytes

A counter-based generator: a key of two words of 32 bits is scrambled by the Threefry cipher with
twenty rounds. Drawing a byte splits the key in two, keeps one half for the next draw, and makes
the byte from the other, so the bytes depend on the seed and on nothing else.
-/

namespace Chip8

/-- Two words of 32 bits: a key of the generator, or a block that it scrambles. -/
structure RandomKey where
  first : UInt32
  second : UInt32
  deriving DecidableEq, Repr

/-! ## The cipher -/

namespace Threefry

def rotateLeft (word distance : UInt32) : UInt32 :=
  (word <<< distance) ||| (word >>> (32 - distance))

def round (block : RandomKey) (distance : UInt32) : RandomKey :=
  let first := block.first + block.second
  { first, second := rotateLeft block.second distance ^^^ first }

def distances (group : Nat) : List UInt32 :=
  if group % 2 = 0 then [13, 15, 26, 6] else [17, 29, 16, 24]

def schedule (key : RandomKey) (position : Nat) : UInt32 :=
  match position % 3 with
  | 0 => key.first
  | 1 => key.second
  | _ => key.first ^^^ key.second ^^^ 0x1BD11BDA

/-- Four rounds, and the next two words of the key schedule with the number of the group. -/
def group (key block : RandomKey) (number : Nat) : RandomKey :=
  let mixed := (distances number).foldl round block
  { first := mixed.first + schedule key (number + 1)
    second := mixed.second + schedule key (number + 2) + UInt32.ofNat (number + 1) }

def scramble (key block : RandomKey) : RandomKey :=
  (List.range 5).foldl (group key)
    { first := block.first + schedule key 0, second := block.second + schedule key 1 }

example : scramble ⟨0, 0⟩ ⟨0, 0⟩ = ⟨0x6B200159, 0x99BA4EFE⟩ := by decide

end Threefry

/-! ## The generator -/

namespace RandomKey

def ofSeed (seed : Int) : RandomKey :=
  { first := 0, second := UInt32.ofNat (seed % 4294967296).toNat }

def SeedFits (seed : Int) : Prop :=
  -9223372036854775808 ≤ seed ∧ seed < 9223372036854775808

instance (seed : Int) : Decidable (SeedFits seed) :=
  inferInstanceAs (Decidable (_ ∧ _))

def next (key : RandomKey) : RandomKey := Threefry.scramble key ⟨0, 0⟩

def branch (key : RandomKey) : RandomKey := Threefry.scramble key ⟨0, 1⟩

def byte (key : RandomKey) : UInt8 :=
  let block := Threefry.scramble (Threefry.scramble key.branch ⟨0, 1⟩) ⟨0, 0⟩
  (block.first ^^^ block.second).toUInt8

def after (key : RandomKey) : Nat → RandomKey
  | 0 => key
  | count + 1 => (key.after count).next

/-- The byte of each draw, counted from zero, of the generator with a seed. -/
def stream (seed : Int) (draw : Nat) : UInt8 := ((ofSeed seed).after draw).byte

end RandomKey

end Chip8
