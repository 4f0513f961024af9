import Chip8.Memory.History

/-! # Memory as a checked store

The size of memory never changes, and it alone decides which calls are refused. A call that is taken
is a patch of its range, so a byte of memory is the one that the last such call with this address in
its range brought, and the one that was there before if there is no such call.
-/

namespace Chip8.Memory

variable {memory next : Memory} {call : Call} {calls : List Call}

/-! ## One call -/

theorem respond_eq_ok_iff :
    memory.respond call = .ok next ↔
      call.Allowed memory.size ∧ memory.patch call.start.toNat call.data = next := by
  cases call with
  | write address data => exact write_eq_ok_iff
  | load image =>
      rw [respond, load_eq_ok_iff, Call.Allowed, Image.size]
      refine and_congr ?_ Iff.rfl
      omega

theorem respond_of_allowed (allowed : call.Allowed memory.size) :
    memory.respond call = .ok (memory.after call) := by
  have success := respond_eq_ok_iff.mpr ⟨allowed, rfl⟩
  rw [after, success]

theorem after_of_allowed (allowed : call.Allowed memory.size) :
    memory.after call = memory.patch call.start.toNat call.data :=
  (respond_eq_ok_iff.mp (respond_of_allowed allowed)).2.symm

theorem after_of_refused (refused : ¬call.Allowed memory.size) : memory.after call = memory := by
  rw [after]
  cases outcome : memory.respond call with
  | ok next => exact absurd (respond_eq_ok_iff.mp outcome).1 refused
  | error fault => rfl

@[simp] theorem size_after (memory : Memory) (call : Call) :
    (memory.after call).size = memory.size := by
  by_cases allowed : call.Allowed memory.size
  · rw [after_of_allowed allowed, size_patch]
  · rw [after_of_refused allowed]

theorem Call.Allowed.within {size : Nat} (allowed : call.Allowed size) :
    0 ≤ call.start ∧ call.start + call.data.length ≤ size := by
  cases call with
  | write address data => exact ⟨allowed.1, allowed.2.1⟩
  | load image =>
      rw [Call.Allowed] at allowed
      rw [Call.start, Call.data]
      omega

theorem Call.byte?_of_covers {address : Nat} (covers : call.Covers address) :
    ∃ byte, call.byte? address = some byte := by
  rw [Call.byte?, if_pos covers]
  rw [Call.Covers] at covers
  exact ⟨_, List.getElem?_eq_getElem (by omega)⟩

theorem byte?_after (allowed : call.Allowed memory.size) (address : Nat) :
    (memory.after call).byte? address = (call.byte? address).or (memory.byte? address) := by
  have within := allowed.within
  rw [after_of_allowed allowed, byte?_patch]
  by_cases covers : call.Covers address
  · rcases Call.byte?_of_covers covers with ⟨byte, found⟩
    rw [found, Option.some_or, ← found, Call.byte?, if_pos covers]
    rw [Call.Covers] at covers
    rw [if_pos (by omega)]
    congr 1
    omega
  · rw [Call.byte?, if_neg covers, Option.none_or]
    rw [Call.Covers] at covers
    exact if_neg (by omega)

/-! ## Histories -/

@[simp] theorem size_afterAll (memory : Memory) (calls : List Call) :
    (memory.afterAll calls).size = memory.size := by
  induction calls generalizing memory with
  | nil => rfl
  | cons call rest induction => exact (induction _).trans (memory.size_after call)

/-- Calls that are refused leave no trace. -/
theorem afterAll_taken (memory : Memory) (calls : List Call) :
    memory.afterAll (taken memory.size calls) = memory.afterAll calls := by
  induction calls generalizing memory with
  | nil => rfl
  | cons call rest induction =>
      have later := induction (memory.after call)
      rw [size_after] at later
      by_cases allowed : call.Allowed memory.size
      · have first : taken memory.size (call :: rest) = call :: taken memory.size rest :=
          List.filter_cons_of_pos (decide_eq_true allowed)
        rw [first]
        exact later
      · have first : taken memory.size (call :: rest) = taken memory.size rest :=
          List.filter_cons_of_neg (by simpa using allowed)
        rw [first, afterAll, afterAll, List.foldl_cons]
        rw [after_of_refused allowed] at later ⊢
        exact later

theorem lastByte?_cons (call : Call) (calls : List Call) (address : Nat) :
    lastByte? (call :: calls) address = (lastByte? calls address).or (call.byte? address) := by
  rw [lastByte?, List.reverse_cons, List.findSome?_append, List.findSome?_singleton]
  rfl

theorem byte?_afterAll_of_allowed (allowed : ∀ call ∈ calls, call.Allowed memory.size)
    (address : Nat) :
    (memory.afterAll calls).byte? address =
      (lastByte? calls address).or (memory.byte? address) := by
  induction calls generalizing memory with
  | nil => rfl
  | cons call rest induction =>
      rw [List.forall_mem_cons] at allowed
      have later := @induction (memory.after call) (by rw [size_after]; exact allowed.2)
      rw [byte?_after allowed.1] at later
      rw [lastByte?_cons, Option.or_assoc]
      exact later

theorem byte?_afterAll (memory : Memory) (calls : List Call) (address : Nat) :
    (memory.afterAll calls).byte? address =
      (lastByte? (taken memory.size calls) address).or (memory.byte? address) := by
  rw [← afterAll_taken]
  apply byte?_afterAll_of_allowed
  intro call member
  exact of_decide_eq_true (List.mem_filter.mp member).2

/-! ## Words and ranges -/

theorem eq_of_byte? {left right : Memory}
    (same : ∀ address, left.byte? address = right.byte? address) : left = right := by
  cases left
  cases right
  exact congrArg mk (Array.ext_getElem? (same ·))

theorem slice_two {address : Nat} (within : address + 1 < memory.size) :
    ∃ high low, memory.byte? address = some high ∧ memory.byte? (address + 1) = some low ∧
      memory.slice address 2 = [high, low] := by
  have first := Array.getElem?_eq_getElem (Nat.lt_of_succ_lt within)
  have second := Array.getElem?_eq_getElem within
  refine ⟨_, _, first, second, ?_⟩
  apply List.ext_getElem?
  intro offset
  rw [getElem?_slice]
  match offset with
  | 0 => exact first
  | 1 => exact second
  | offset + 2 => rfl

theorem exists_read_iff {address length : Int} :
    (∃ data, memory.read address length = .ok data) ↔
      0 ≤ address ∧ 0 ≤ length ∧ address + length ≤ memory.size := by
  simp only [read_eq_ok_iff, exists_and_left, exists_eq', and_true]

theorem getElem?_of_read {address length : Nat} {data : List UInt8}
    (success : memory.read address length = .ok data) (offset : Nat) :
    data[offset]? = if offset < length then memory.byte? (address + offset) else none := by
  rcases read_eq_ok_iff.mp success with ⟨_, rfl⟩
  exact getElem?_slice memory address length offset

theorem length_of_read {address length : Nat} {data : List UInt8}
    (success : memory.read address length = .ok data) : data.length = length := by
  rcases read_eq_ok_iff.mp success with ⟨⟨_, _, within⟩, rfl⟩
  exact length_slice (by omega)

theorem exists_fetchWord_iff {address : Int} :
    (∃ word, memory.fetchWord address = .ok word) ↔ 0 ≤ address ∧ address + 1 < memory.size := by
  rw [fetchWord]
  split
  next outside =>
    refine iff_of_false ?_ (by omega)
    rintro ⟨word, impossible⟩
    cases impossible
  next inside => exact iff_of_true ⟨_, rfl⟩ (by omega)

theorem read_of_fetchWord {address : Int} {word : Word}
    (success : memory.fetchWord address = .ok word) :
    ∃ high low, memory.read address 2 = .ok [high, low] ∧ Word.ofBytes high low = word := by
  rcases exists_fetchWord_iff.mp ⟨word, success⟩ with ⟨nonnegative, within⟩
  rcases @slice_two memory address.toNat (by omega) with ⟨high, low, first, second, bytes⟩
  refine ⟨high, low, read_eq_ok_iff.mpr ⟨by omega, bytes⟩, ?_⟩
  rw [fetchWord, if_neg (by omega)] at success
  simpa only [first, second, Option.getD_some] using Except.ok.inj success

/-- Calls that are allowed and have no address in common can change places. -/
theorem after_comm {left right : Call} (leftAllowed : left.Allowed memory.size)
    (rightAllowed : right.Allowed memory.size)
    (disjoint : ∀ address, ¬(left.Covers address ∧ right.Covers address)) :
    (memory.after left).after right = (memory.after right).after left := by
  apply eq_of_byte?
  intro address
  rw [byte?_after (by rwa [size_after]), byte?_after leftAllowed, byte?_after (by rwa [size_after]),
    byte?_after rightAllowed]
  by_cases covers : left.Covers address
  · have free : ¬right.Covers address := fun both => disjoint address ⟨covers, both⟩
    rw [Call.byte?, if_neg free, Option.none_or, Option.none_or]
  · rw [Call.byte?, Call.byte?, if_neg covers, Option.none_or, Option.none_or]

/-! ## Main statement -/

/-- What is left after some calls, seen through the checked accesses. -/
structure Stores (initial : Memory) (calls : List Call) (last : Memory) : Prop where
  accepts : ∀ call, (∃ next, last.respond call = .ok next) ↔ call.Allowed initial.size
  refused : last = initial.afterAll (taken initial.size calls)
  reads : ∀ address length, (∃ data, last.read address length = .ok data) ↔
    0 ≤ address ∧ 0 ≤ length ∧ address + length ≤ initial.size
  bytes : ∀ address length data, last.read address length = .ok data →
    (data.length : Int) = length ∧ ∀ offset, offset < data.length →
      data[offset]? =
        (lastByte? (taken initial.size calls) (address.toNat + offset)).or
          (initial.byte? (address.toNat + offset))
  fetches : ∀ address, (∃ word, last.fetchWord address = .ok word) ↔
    0 ≤ address ∧ address + 1 < initial.size
  words : ∀ address word, last.fetchWord address = .ok word →
    ∃ high low, last.read address 2 = .ok [high, low] ∧
      word.toNat = 256 * high.toNat + low.toNat
  commutes : ∀ left right : Call, left.Allowed initial.size → right.Allowed initial.size →
    (∀ address, ¬(left.Covers address ∧ right.Covers address)) →
      ∃ both, (last.after left).respond right = .ok both ∧
        (last.after right).respond left = .ok both

/-- Memory keeps what is written and loaded, whatever was there before and whichever calls are
refused: each read gives the bytes of the last calls that were taken. -/
theorem stores_afterAll (memory : Memory) (calls : List Call) :
    Stores memory calls (memory.afterAll calls) where
  accepts call := by
    simp only [respond_eq_ok_iff, size_afterAll, exists_and_left, exists_eq', and_true]
  refused := (memory.afterAll_taken calls).symm
  reads address length := by rw [exists_read_iff, size_afterAll]
  bytes address length data readable := by
    rcases read_eq_ok_iff.mp readable with ⟨⟨nonnegative, some, within⟩, rfl⟩
    have whole : ((memory.afterAll calls).slice address.toNat length.toNat).length = length.toNat :=
      length_slice (by omega)
    refine ⟨by omega, fun offset inside => ?_⟩
    rw [whole] at inside
    rw [getElem?_slice, if_pos inside, byte?_afterAll]
  fetches address := by
    rw [exists_fetchWord_iff, size_afterAll]
  words address word fetched := by
    rcases read_of_fetchWord fetched with ⟨high, low, readable, rfl⟩
    refine ⟨high, low, readable, ?_⟩
    rw [Word.toNat_ofBytes, Nat.mul_comm]
  commutes left right leftAllowed rightAllowed disjoint := by
    rw [← size_afterAll memory calls] at leftAllowed rightAllowed
    refine ⟨_, respond_of_allowed (by rwa [size_after]), ?_⟩
    rw [after_comm leftAllowed rightAllowed disjoint]
    exact respond_of_allowed (by rwa [size_after])

end Chip8.Memory
