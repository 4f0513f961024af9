import Chip8.Font
import Chip8.Image
import Chip8.Size

/-!
# Memory

An array of bytes, read and written in checked ranges. Programs may not write below `reservedEnd`,
where the interpreter keeps its font. Addresses and lengths may be any integers: a range that is
not part of memory is a fault.

`byte?` is the view of memory in which the operations are described.
-/

namespace Chip8

structure Memory where
  bytes : Array UInt8
  deriving DecidableEq

namespace Memory

def standardSize : Nat := 4096

def reservedEnd : Nat := 0x200

def size (memory : Memory) : Nat := memory.bytes.size

def byte? (memory : Memory) (address : Nat) : Option UInt8 := memory.bytes[address]?

/-! ## Unchecked access -/

def slice (memory : Memory) (address length : Nat) : List UInt8 :=
  (memory.bytes.extract address (address + length)).toList

theorem getElem?_slice (memory : Memory) (address length offset : Nat) :
    (memory.slice address length)[offset]? =
      if offset < length then memory.byte? (address + offset) else none := by
  simp only [slice, byte?, Array.getElem?_toList, Array.getElem?_extract]
  grind

theorem length_slice {memory : Memory} {address length : Nat}
    (within : address + length ≤ memory.size) : (memory.slice address length).length = length := by
  rw [size] at within
  simp only [slice, Array.length_toList, Array.size_extract]
  omega

/-- Replace the bytes from an address on; bytes past the end of memory are dropped. -/
def patch (memory : Memory) (address : Nat) : List UInt8 → Memory
  | [] => memory
  | byte :: rest => patch { bytes := memory.bytes.setIfInBounds address byte } (address + 1) rest

@[simp] theorem size_patch (memory : Memory) (address : Nat) (data : List UInt8) :
    (memory.patch address data).size = memory.size := by
  induction data generalizing memory address with
  | nil => rfl
  | cons byte rest induction =>
      rw [patch, induction]
      exact Array.size_setIfInBounds

theorem byte?_patch (memory : Memory) (address : Nat) (data : List UInt8) (index : Nat) :
    (memory.patch address data).byte? index =
      if address ≤ index ∧ index < address + data.length ∧ index < memory.size then
        data[index - address]?
      else
        memory.byte? index := by
  induction data generalizing memory address with
  | nil =>
      rw [if_neg (by simp only [List.length_nil]; omega)]
      rfl
  | cons byte rest induction =>
      rw [patch, induction]
      simp only [byte?, size, Array.size_setIfInBounds, Array.getElem?_setIfInBounds]
      grind

/-! ## New memory -/

def zeros (size : Nat) : Memory := { bytes := Array.replicate size 0 }

def initial (size : Nat) : Memory :=
  if size ≤ Font.start then zeros size else (zeros size).patch Font.start Font.data

@[simp] theorem size_initial (size : Nat) : (initial size).size = size := by
  unfold initial
  split
  · exact Array.size_replicate
  · rw [size_patch]
    exact Array.size_replicate

/-- Build memory of a size. The font fits or is left out, it is never cut. -/
def create (size : Int) : Except SizeError Memory :=
  match checkedSize size with
  | .error error => .error error
  | .ok size =>
      if Font.start < size ∧ size < Font.stop then .error (.cutsFont size) else .ok (initial size)

/-! ## Checked access -/

def fetchWord (memory : Memory) (address : Int) : Except Fault Word :=
  if address < 0 ∨ address + 1 ≥ memory.size then
    .error (.outOfBounds address 2 .outside)
  else
    let index := address.toNat
    .ok (.ofBytes ((memory.byte? index).getD 0) ((memory.byte? (index + 1)).getD 0))

def read (memory : Memory) (address length : Int) : Except Fault (List UInt8) :=
  if address < 0 ∨ length < 0 ∨ address + length > memory.size then
    .error (.outOfBounds address length .outside)
  else
    .ok (memory.slice address.toNat length.toNat)

theorem read_eq_ok_iff {memory : Memory} {address length : Int} {data : List UInt8} :
    memory.read address length = .ok data ↔
      (0 ≤ address ∧ 0 ≤ length ∧ address + length ≤ memory.size) ∧
      memory.slice address.toNat length.toNat = data := by
  unfold read
  split
  next outside =>
    constructor
    · intro impossible
      cases impossible
    · rintro ⟨⟨nonnegative, some, within⟩, _⟩
      omega
  next inside =>
    constructor
    · intro equal
      exact ⟨by omega, Except.ok.inj equal⟩
    · intro holds
      rw [holds.2]

/-- Write bytes from an address on. Writing nothing is no access to the reserved area. -/
def write (memory : Memory) (address : Int) (data : List UInt8) : Except Fault Memory :=
  if address < 0 ∨ address + data.length > memory.size then
    .error (.outOfBounds address data.length .outside)
  else if address < reservedEnd ∧ data ≠ [] then
    .error (.outOfBounds address data.length .reserved)
  else
    .ok (memory.patch address.toNat data)

theorem write_eq_ok_iff {memory written : Memory} {address : Int} {data : List UInt8} :
    memory.write address data = .ok written ↔
      (0 ≤ address ∧ address + data.length ≤ memory.size ∧
        (data = [] ∨ (reservedEnd : Int) ≤ address)) ∧
      memory.patch address.toNat data = written := by
  unfold write
  split
  next outside =>
    constructor
    · intro impossible
      cases impossible
    · rintro ⟨⟨nonnegative, within, _⟩, _⟩
      omega
  next inside =>
    have nonnegative : 0 ≤ address := by omega
    have within : address + data.length ≤ memory.size := by omega
    split
    next reserved =>
      constructor
      · intro impossible
        cases impossible
      · rintro ⟨⟨_, _, allowed⟩, _⟩
        rcases allowed with empty | above
        · exact absurd empty reserved.2
        · omega
    next allowed =>
      have writable : data = [] ∨ (reservedEnd : Int) ≤ address := by
        by_cases empty : data = []
        · exact .inl empty
        · exact .inr (Int.not_lt.mp fun below => allowed ⟨below, empty⟩)
      constructor
      · intro equal
        exact ⟨⟨nonnegative, within, writable⟩, Except.ok.inj equal⟩
      · intro holds
        rw [holds.2]

/-- The space for an image of a variant: its budget, or what memory holds above the load address.
It is negative if memory ends below that address. -/
def room (memory : Memory) (variant : Variant) : Int :=
  min (variant.budget : Int) (memory.size - variant.base)

def load (memory : Memory) (image : Image) : Except Fault Memory :=
  if image.size > memory.room image.variant then
    .error (.imageTooLarge image.size (max (memory.room image.variant) 0))
  else
    .ok (memory.patch image.base image.data)

/-- An image is loaded if it keeps to its budget and to the end of memory. -/
theorem load_eq_ok_iff {memory loaded : Memory} {image : Image} :
    memory.load image = .ok loaded ↔
      (image.size ≤ image.variant.budget ∧ image.base + image.size ≤ memory.size) ∧
      memory.patch image.base image.data = loaded := by
  unfold load room Image.base
  split
  next large =>
    constructor
    · intro impossible
      cases impossible
    · rintro ⟨⟨budget, within⟩, _⟩
      omega
  next fits =>
    constructor
    · intro equal
      exact ⟨by omega, Except.ok.inj equal⟩
    · intro holds
      rw [holds.2]

end Memory

end Chip8
