import Chip8.Proofs.Machine.Loaded
import Chip8.Proofs.Session.Replay

/-! # Loading

A load is accepted or refused by the bytes, the variant and the size of memory alone, whatever the
session did before. An accepted load leaves a machine as it was built, with the image in its memory
and the program counter at the first byte; a refused load leaves everything as it was. The size is
looked at twice, once when the image is made and once when it is copied, and each look has a budget
of its own.
-/

namespace Chip8

theorem Variant.detect_length (data : List UInt8) :
    detect data.length = if data.length = 2560 then .eti660 else .standard := by
  have same : (data.length : Int) = Variant.eti660.budget ↔ data.length = 2560 := Int.ofNat_inj
  rw [detect]
  simp only [same]

def Image.refusal (data : List UInt8) (variant : Variant) (memorySize : Int) : Option Fault :=
  if data = [] then
    some (.invalidImage .empty)
  else if variant.budget < data.length then
    some (.imageTooLarge data.length variant.budget)
  else if memorySize < variant.base + data.length then
    some (.imageTooLarge data.length (max (memorySize - variant.base) 0))
  else
    none

theorem Image.refusal_eq_none_iff {data : List UInt8} {variant : Variant} {memorySize : Int} :
    refusal data variant memorySize = none ↔
      data ≠ [] ∧ data.length ≤ variant.budget ∧ variant.base + data.length ≤ memorySize := by
  unfold refusal
  split
  next empty => simp [empty]
  next nonempty =>
    split
    next large => simp; omega
    next fits =>
      split
      next past => simp; omega
      next within => simp [nonempty]; omega

theorem Image.eq_of_refusal {data : List UInt8} {variant : Variant} {memorySize : Int}
    {fault : Fault} (refused : refusal data variant memorySize = some fault) :
    fault =
      if data = [] then .invalidImage .empty
      else if variant.budget < data.length then .imageTooLarge data.length variant.budget
      else .imageTooLarge data.length (max (memorySize - variant.base) 0) := by
  rw [refusal] at refused
  split_ifs at refused ⊢
  all_goals exact (Option.some.inj refused).symm

theorem Image.getElem?_padded (image : Image) {offset : Nat}
    (within : offset < image.variant.budget) :
    image.padded[offset]? = some ((image.data[offset]?).getD 0) := by
  rw [padded, List.getElem?_append]
  split
  next covered => rw [List.getElem?_eq_getElem covered, Option.getD_some]
  next past =>
    rw [List.getElem?_replicate, if_pos (by rw [Image.size]; omega),
      List.getElem?_eq_none (Nat.le_of_not_lt past), Option.getD_none]

namespace Machine

/-- The machine is a fresh one but for an image in its memory, where it is about to begin. -/
structure IsLoaded (fresh : Machine) (image : Image) (machine : Machine) : Prop where
  begins : machine.pc.toNat = image.base
  size : machine.memory.size = fresh.memory.size
  bytes : ∀ address, machine.memory.byte? address =
    if image.base ≤ address ∧ address < image.base + image.size then
      image.data[address - image.base]?
    else
      fresh.memory.byte? address
  /-- As far as memory and the budget go, there are only zeros behind the image. -/
  padded : machine.memory.slice image.base image.variant.budget =
    image.padded.take (machine.memory.size - image.base)
  rest : machine = { fresh with memory := machine.memory, pc := machine.pc }

variable {options : Options} {fresh loaded : Machine} {image : Image}

theorem memory_of_build (built : build options = .ok fresh) :
    Memory.create options.memorySize = .ok fresh.memory := by
  rcases parts_of_build built with ⟨memory, display, stack, created, _, _, rfl⟩
  exact created

theorem slice_of_load (built : build options = .ok fresh)
    (success : fresh.load image = .ok loaded) :
    loaded.memory.slice image.base image.variant.budget =
      image.padded.take (loaded.memory.size - image.base) := by
  rcases memory_of_load built success with ⟨size, _, loads⟩
  have fits := (Memory.load_eq_ok_iff.mp loads).1.1
  have same : loaded.memory.size = size := by
    rcases Memory.load_eq_ok_iff.mp loads with ⟨_, copied⟩
    rw [← copied, Memory.size_patch, Memory.size_initial]
  apply List.ext_getElem?
  intro offset
  rw [Memory.getElem?_slice, List.getElem?_take, same]
  by_cases budgeted : offset < image.variant.budget
  · rw [if_pos budgeted, image.getElem?_padded budgeted]
    by_cases within : image.base + offset < size
    · rw [if_pos (by omega), Memory.byte?_load loads within]
    · rw [if_neg (by omega)]
      rw [← same] at within
      exact Array.getElem?_eq_none (Nat.le_of_not_lt within)
  · have behind : image.padded[offset]? = none :=
      List.getElem?_eq_none ((image.length_padded fits).trans_le (Nat.le_of_not_lt budgeted))
    rw [if_neg budgeted, behind, ite_self]

theorem isLoaded_of_load (built : build options = .ok fresh)
    (success : fresh.load image = .ok loaded) : fresh.IsLoaded image loaded := by
  have padded := slice_of_load built success
  rcases map_eq_ok_iff.mp success with ⟨copied, loads, rfl⟩
  rcases Memory.load_eq_ok_iff.mp loads with ⟨⟨budget, within⟩, rfl⟩
  refine ⟨toNat_base image, Memory.size_patch _ _ _, ?_, padded, rfl⟩
  intro address
  rw [Memory.byte?_patch]
  rw [Image.size] at within ⊢
  exact if_congr (by omega) rfl rfl

theorem load_of_fits (machine : Machine) {data : List UInt8} {variant : Variant}
    (nonempty : data ≠ []) (fits : data.length ≤ variant.budget) {fault : Fault} :
    machine.load ⟨data, variant⟩ = .error fault ↔
      Image.refusal data variant machine.memory.size = some fault := by
  rw [load, map_eq_error_iff, Memory.load, Image.refusal, if_neg nonempty,
    if_neg (Nat.not_lt.mpr fits), Memory.room, Image.size]
  have room : min (variant.budget : Int) (machine.memory.size - variant.base) < data.length ↔
      (machine.memory.size : Int) < variant.base + data.length := by omega
  by_cases past : (machine.memory.size : Int) < variant.base + data.length
  · have left : min (variant.budget : Int) (machine.memory.size - variant.base) =
        machine.memory.size - variant.base := by omega
    rw [if_pos (room.mpr past), if_pos past, left]
    simp
  · rw [if_neg (mt room.mp past), if_neg past]
    simp

end Machine

namespace Session

/-! ## Loads that are accepted -/

theorem Core.load_of_loadImage {core : Core} {image : Image}
    (success : (core.loadImage image).2 = none) :
    core.fresh.load image = .ok (core.loadImage image).1.machine := by
  rw [loadImage] at success ⊢
  split at success
  · cases success
  next loaded => rw [loaded]

theorem Core.load_of_call {core : Core} {call : Call} {image : Image}
    (requested : call.image? = some image) (success : (core.call call).2 = none) :
    core.fresh.load image = .ok (core.call call).1.machine := by
  cases call with
  | load data variant =>
      rw [Call.image?] at requested
      rw [Core.call] at success ⊢
      cases checked : Image.ofBytes data variant with
      | error fault =>
          rw [checked] at requested
          cases requested
      | ok checkedImage =>
          rw [checked] at requested success
          cases requested
          exact load_of_loadImage success
  | loadImage other =>
      cases requested
      exact load_of_loadImage success
  | step | run | tick | setKeys => cases requested

theorem load_of_accepted {options : Options} {tracer : Option Log.Tracer} {opened : Session}
    (begun : open? options tracer = .ok opened) (history : History) {now : Time} {call : Call}
    {image : Image} (requested : call.image? = some image)
    (accepted : ((opened.after history).call now call).fault = none) :
    ∃ fresh, Machine.build options = .ok fresh ∧
      fresh.load image = .ok ((opened.after history).call now call).session.machine := by
  rcases map_eq_ok_iff.mp begun with ⟨fresh, built, rfl⟩
  rcases (Session.after _ history).call_core now call with ⟨changed, reported⟩
  rw [reported] at accepted
  have loaded := Core.load_of_call requested accepted
  rw [← changed, after_core, Core.fresh_after] at loaded
  exact ⟨fresh, built, loaded⟩

/-! ## Loads that are refused -/

theorem fault_load (session : Session) (now : Time) (data : List UInt8) (variant : Option Variant) :
    (session.load now data variant).fault =
      Image.refusal data (variant.getD (.detect data.length)) session.fresh.memory.size := by
  rw [load, Image.ofBytes]
  by_cases empty : data = []
  · rw [if_pos empty, Image.refusal, if_pos empty]
  -- The budget of the variant is looked at before memory is.
  rw [if_neg empty]
  by_cases large : (variant.getD (.detect data.length)).budget < data.length
  · simp only [if_pos large, Image.refusal, if_neg empty]
  simp only [if_neg large, loadImage]
  have refuses := @Machine.load_of_fits session.fresh _ _ empty (Nat.not_lt.mp large)
  cases outcome : session.fresh.load ⟨data, variant.getD (.detect data.length)⟩ with
  | error fault => exact (refuses.mp outcome).symm
  | ok machine =>
      cases refused : Image.refusal data _ session.fresh.memory.size with
      | none => rfl
      | some fault => cases outcome.symm.trans (refuses.mpr refused)

theorem load_of_fault {session : Session} {now : Time} {data : List UInt8}
    {variant : Option Variant} {fault : Fault}
    (refused : (session.load now data variant).fault = some fault) :
    session.load now data variant = { session, fault := some fault } := by
  rw [load] at refused ⊢
  cases checked : Image.ofBytes data variant with
  | error cause =>
      rw [checked] at refused
      cases refused
      rfl
  | ok image =>
      rw [checked] at refused
      simp only [loadImage] at refused ⊢
      cases outcome : session.fresh.load image with
      | error cause =>
          rw [outcome] at refused
          cases refused
          rfl
      | ok machine =>
          rw [outcome] at refused
          cases refused

theorem fresh_after (session : Session) (history : History) :
    (session.after history).fresh = session.fresh := by
  have unchanged := congrArg Core.fresh (session.after_core history)
  rw [Core.fresh_after] at unchanged
  exact unchanged

theorem size_of_open? {options : Options} {tracer : Option Log.Tracer} {opened : Session}
    (begun : open? options tracer = .ok opened) :
    (opened.fresh.memory.size : Int) = options.memorySize := by
  rcases map_eq_ok_iff.mp begun with ⟨fresh, built, rfl⟩
  exact (Memory.create_cases (Machine.memory_of_build built)).1

theorem image?_load {data : List UInt8} {given : Option Variant} (nonempty : data ≠ [])
    (fits : data.length ≤
      (given.getD (if data.length = 2560 then .eti660 else .standard)).budget) :
    (Call.load data given).image? =
      some ⟨data, given.getD (if data.length = 2560 then .eti660 else .standard)⟩ := by
  rw [Call.image?, Image.ofBytes, if_neg nonempty, Variant.detect_length]
  simp only [if_neg (Nat.not_lt.mpr fits)]
  rfl

/-- Whatever came before, a load succeeds just if there are bytes, and no more than the variant and
memory have room for. Then the machine is a new one with the image in memory, and the load returns
the address of its first byte. Otherwise nothing changes, and the fault is that of the first
condition which does not hold. -/
theorem load_exact {options : Options} {tracer : Option Log.Tracer} {opened : Session}
    (begun : open? options tracer = .ok opened) (history : History) (now : Time)
    (data : List UInt8) (given : Option Variant) :
    let variant := given.getD (if data.length = 2560 then .eti660 else .standard)
    let reply := (opened.after history).call now (.load data given)
    (reply.fault = none ↔
      data ≠ [] ∧ data.length ≤ variant.budget ∧
        variant.base + data.length ≤ options.memorySize) ∧
      (reply.fault = none →
        reply.result = some variant.base ∧ reply.session.image = some ⟨data, variant⟩ ∧
          ∃ fresh, Machine.build options = .ok fresh ∧
            Memory.create options.memorySize = .ok fresh.memory ∧
            fresh.IsLoaded ⟨data, variant⟩ reply.session.machine) ∧
      ∀ fault, reply.fault = some fault →
        reply.session = opened.after history ∧ reply.lines = [] ∧ reply.result = none ∧
          fault =
            if data = [] then .invalidImage .empty
            else if variant.budget < data.length then .imageTooLarge data.length variant.budget
            else .imageTooLarge data.length (max (options.memorySize - variant.base) 0) := by
  intro variant reply
  have outcome : reply.fault = Image.refusal data variant options.memorySize := by
    have same := (opened.after history).fault_load now data given
    rw [Variant.detect_length, fresh_after, size_of_open? begun] at same
    exact same
  refine ⟨?_, ?_, ?_⟩
  · rw [outcome]
    exact Image.refusal_eq_none_iff
  · intro accepted
    rcases Image.refusal_eq_none_iff.mp (outcome.symm.trans accepted) with ⟨nonempty, fits, _⟩
    have requested : (Call.load data given).image? = some ⟨data, variant⟩ :=
      image?_load nonempty fits
    rcases load_of_accepted begun history requested accepted with ⟨fresh, built, loaded⟩
    rcases (opened.after history).call_core now (.load data given) with ⟨changed, reported⟩
    have image := Core.image_call (reported.symm.trans accepted)
    rw [requested, Option.some_or, ← changed] at image
    have returned : reply.result = some variant.base := by
      rw [show reply.result = _ from result_call _ now _, Core.result, ← reported, requested]
      exact if_pos accepted
    exact ⟨returned, image, fresh, built, Machine.memory_of_build built,
      Machine.isLoaded_of_load built loaded⟩
  · intro fault refused
    have unchanged : reply = _ := load_of_fault refused
    rw [unchanged]
    exact ⟨rfl, rfl, rfl, Image.eq_of_refusal (outcome.symm.trans refused)⟩

theorem load_exact_at_end :
    ∃ opened fresh, open? { memorySize := 0x602, width := 8, height := 1 } none = .ok opened ∧
      Machine.build { memorySize := 0x602, width := 8, height := 1 } = .ok fresh ∧
      ((opened.after [(0, .setKeys 1)]).call 1
        (.load [0x16, 0x00] (some .eti660))).result = some 0x600 ∧
      fresh.IsLoaded ⟨[0x16, 0x00], .eti660⟩
        ((opened.after [(0, .setKeys 1)]).call 1
          (.load [0x16, 0x00] (some .eti660))).session.machine ∧
      ((opened.after [(0, .setKeys 1)]).call 1 (.load [0x16, 0x00, 0x00] (some .eti660))).fault =
        some (.imageTooLarge 3 2) := by
  let opened := ofMachine (Machine.ofParts 0 (.initial 0x602) (.blank 8 1) (.empty 16) false) none
  have begun : open? { memorySize := 0x602, width := 8, height := 1 } none = .ok opened := rfl
  rcases load_exact begun [(0, .setKeys 1)] 1 [0x16, 0x00] (some .eti660) with ⟨accepts, loads, _⟩
  rcases loads (accepts.mpr (by decide)) with ⟨returned, _, fresh, built, _, loaded⟩
  refine ⟨opened, fresh, begun, built, returned, loaded, ?_⟩
  decide +kernel

end Session

end Chip8
