import Chip8.Proofs.Machine.Parts
import Chip8.Proofs.Session.Account

/-! # The stream of random bytes

The key of a machine is moved on by the one opcode that draws a random byte, and by nothing else. A
load begins again with the key of the seed. So the key says how many bytes were drawn since the last
load, and the bytes that programs see form one stream, whatever the programs do with them.
-/

namespace Chip8

namespace Machine

variable {machine next : Machine} {instruction : Instruction}

def upcoming? (machine : Machine) : Option Instruction :=
  if machine.blocked then
    none
  else
    match machine.fetch with
    | .error _ => none
    | .ok (word, _) => Instruction.ofWord? word

theorem upcoming?_eq_some_iff :
    machine.upcoming? = some instruction ↔
      machine.blocked = false ∧ machine.Points instruction := by
  rw [upcoming?]
  cases blocked : machine.blocked with
  | true => simp
  | false =>
      cases outcome : machine.fetch with
      | error fault =>
          have lost : ¬machine.Points instruction := by
            rintro ⟨word, holds, _⟩
            rw [fetch_of_holds holds] at outcome
            cases outcome
          simp [lost]
      | ok fetched =>
          have holds := (holds_of_fetch outcome).1
          simp only [Bool.false_eq_true, if_false, true_and]
          constructor
          · intro decoded
            exact ⟨fetched.1, holds, decoded⟩
          · rintro ⟨word, holdsToo, decoded⟩
            rw [← holdsToo.unique holds]
            exact decoded

theorem step_of_upcoming (upcoming : machine.upcoming? = some instruction) :
    machine.step = machine.advanced.execute instruction := by
  rcases upcoming?_eq_some_iff.mp upcoming with ⟨free, points⟩
  exact step_of_points free points

/-! ## Draws -/

def draws (machine : Machine) : Bool :=
  machine.upcoming?.any fun instruction => instruction.opcode = .random

theorem random_of_execute (success : machine.execute instruction = .ok next)
    (other : instruction.opcode ≠ .random) : next.random = machine.random := by
  have unwritten : Part.random ∉ instruction.opcode.writes := by
    cases named : instruction.opcode <;> simp_all [Opcode.writes]
  exact execute_sameAt success unwritten

theorem step_of_draws (draws : machine.draws = true) :
    ∃ x mask, machine.upcoming? = some ⟨.random, (x, mask)⟩ ∧
      machine.step = .ok (machine.advanced.randomize x mask) := by
  rcases (Option.any_eq_true _ _).mp draws with ⟨⟨opcode, operands⟩, upcoming, named⟩
  cases of_decide_eq_true named
  exact ⟨operands.1, operands.2, upcoming, step_of_upcoming upcoming⟩

theorem random_of_step (success : machine.step = .ok next) :
    next.random = if machine.draws then machine.random.next else machine.random := by
  cases drawn : machine.draws with
  | true =>
      rcases step_of_draws drawn with ⟨x, mask, _, drawing⟩
      rw [drawing] at success
      cases success
      rfl
  | false =>
      rcases step_cases success with ⟨_, rfl⟩ | ⟨free, instruction, points, executed⟩
      · rfl
      · have upcoming := upcoming?_eq_some_iff.mpr ⟨free, points⟩
        have other : instruction.opcode ≠ .random := by
          rw [draws, upcoming] at drawn
          exact of_decide_eq_false drawn
        have kept := random_of_execute executed other
        exact kept

end Machine

namespace Session

/-! ## Counting draws -/

def Episode.draws (count : Nat) : Episode → Nat
  | .loaded _ => 0
  | .stepped machine => if machine.draws then count + 1 else count
  | .ran _ => count

/-- The number of bytes drawn since the last load, or since the beginning. -/
def drawsSinceLoad (count : Nat) (episodes : List Episode) : Nat :=
  episodes.foldl Episode.draws count

def Keyed (seed : Int) (count : Nat) (machine : Machine) : Prop :=
  machine.random = (RandomKey.ofSeed seed).after count

def Episode.InStream (seed : Int) (count : Nat) : Episode → Prop
  | .stepped machine => Keyed seed count machine
  | .loaded _ | .ran _ => True

/-- Every step was taken with the key that the draws before it lead to. -/
def OnStream (seed : Int) : Nat → List Episode → Prop
  | _, [] => True
  | count, episode :: rest =>
      episode.InStream seed count ∧ OnStream seed (episode.draws count) rest

theorem onStream_append_iff {seed : Int} {count : Nat} {first second : List Episode} :
    OnStream seed count (first ++ second) ↔
      OnStream seed count first ∧ OnStream seed (drawsSinceLoad count first) second := by
  induction first generalizing count with
  | nil => simp [OnStream, drawsSinceLoad]
  | cons episode rest induction =>
      rw [List.cons_append, OnStream, OnStream, induction, and_assoc]
      rfl

theorem drawsSinceLoad_append (count : Nat) (first second : List Episode) :
    drawsSinceLoad count (first ++ second) = drawsSinceLoad (drawsSinceLoad count first) second :=
  List.foldl_append

variable {seed : Int} {count : Nat} {machine next : Machine} {core : Core}

theorem Keyed.step (keyed : Keyed seed count machine) (success : machine.step = .ok next) :
    Keyed seed (Episode.draws count (.stepped machine)) next := by
  rw [Keyed, Machine.random_of_step success, Episode.draws, keyed]
  split <;> rfl

theorem Keyed.draw (keyed : Keyed seed count machine) {x : Register} {mask : UInt8}
    (upcoming : machine.upcoming? = some ⟨.random, (x, mask)⟩) :
    ∃ next, machine.step = .ok next ∧ next.v[x] = RandomKey.stream seed count &&& mask := by
  refine ⟨machine.advanced.randomize x mask, Machine.step_of_upcoming upcoming, ?_⟩
  change (machine.v.put x (machine.random.byte &&& mask))[x] = _
  rw [Registers.getElem_put, if_pos rfl, keyed]
  rfl

theorem draws_of_error {fault : Fault} (failure : machine.step = .error fault) :
    Episode.draws count (.stepped machine) = count := by
  rw [Episode.draws]
  split
  next drawn =>
      rcases Machine.step_of_draws drawn with ⟨_, _, _, success⟩
      cases failure.symm.trans success
  next => rfl

theorem onStream_steps (keyed : Keyed seed count machine) (steps : Nat) :
    OnStream seed count ((machine.course steps).map .stepped) ∧
      Keyed seed (drawsSinceLoad count ((machine.course steps).map .stepped))
        (machine.steps steps).1 := by
  induction steps generalizing machine count with
  | zero => exact ⟨trivial, keyed⟩
  | succ steps induction =>
      cases outcome : machine.step with
      | error fault =>
          rw [Machine.course_of_error outcome, Machine.steps_of_error outcome]
          refine ⟨⟨keyed, trivial⟩, ?_⟩
          rw [List.map_singleton, drawsSinceLoad, List.foldl_cons, draws_of_error outcome]
          exact keyed
      | ok next =>
          rw [Machine.course_of_ok outcome, Machine.steps_of_ok outcome]
          rcases induction (keyed.step outcome) with ⟨later, last⟩
          exact ⟨⟨keyed, later⟩, last⟩

theorem onStream_loads (begun : core.fresh.random = .ofSeed seed)
    (keyed : Keyed seed count core.machine) (image : Image) :
    OnStream seed count (core.loads image) ∧
      Keyed seed (drawsSinceLoad count (core.loads image)) (core.loadImage image).1.machine := by
  rw [Core.loads, Core.loadImage]
  cases outcome : core.fresh.load image with
  | error fault => exact ⟨trivial, keyed⟩
  | ok machine =>
      rcases map_eq_ok_iff.mp outcome with ⟨memory, _, rfl⟩
      exact ⟨⟨trivial, trivial⟩, begun⟩

theorem onStream_call (begun : core.fresh.random = .ofSeed seed)
    (keyed : Keyed seed count core.machine) (call : Call) :
    OnStream seed count (core.episodes call) ∧
      Keyed seed (drawsSinceLoad count (core.episodes call)) (core.call call).1.machine := by
  cases call with
  | load data variant =>
      rw [Core.episodes, Core.call]
      cases Image.ofBytes data variant with
      | error fault => exact ⟨trivial, keyed⟩
      | ok image => exact onStream_loads begun keyed image
  | loadImage image => exact onStream_loads begun keyed image
  | step =>
      refine ⟨⟨keyed, trivial⟩, ?_⟩
      rw [Core.call]
      cases outcome : core.machine.step with
      | error fault =>
          rw [Core.episodes, drawsSinceLoad, List.foldl_cons, draws_of_error outcome]
          exact keyed
      | ok next => exact keyed.step outcome
  | run steps =>
      rcases onStream_steps keyed steps.toNat with ⟨taken, last⟩
      rw [Core.episodes, onStream_append_iff, drawsSinceLoad_append]
      split
      · exact ⟨⟨taken, trivial, trivial⟩, last⟩
      · exact ⟨⟨taken, trivial⟩, last⟩
  | tick | setKeys => exact ⟨trivial, keyed⟩

theorem onStream_account (begun : core.fresh.random = .ofSeed seed)
    (keyed : Keyed seed count core.machine) (history : History) :
    OnStream seed count ((core.account history).map Prod.snd) ∧
      Keyed seed (drawsSinceLoad count ((core.account history).map Prod.snd))
        (core.after (history.map Prod.snd)).machine := by
  induction history generalizing core count with
  | nil => exact ⟨trivial, keyed⟩
  | cons entry rest induction =>
      rcases entry with ⟨now, call⟩
      rcases onStream_call begun keyed call with ⟨first, middle⟩
      rcases induction ((congrArg _ (core.fresh_call call)).trans begun) middle with ⟨later, last⟩
      have episodes : ((core.episodes call).map (now, ·)).map Prod.snd = core.episodes call := by
        rw [List.map_map]
        exact List.map_id _
      rw [Core.account, List.map_append, episodes, onStream_append_iff, drawsSinceLoad_append]
      exact ⟨⟨first, later⟩, last⟩

theorem drawsSinceLoad_of_load {call : Call} (isLoad : call.isLoad = true)
    (accepted : (core.call call).2 = none) : drawsSinceLoad count (core.episodes call) = 0 := by
  have loads {image : Image} (accepted : (core.loadImage image).2 = none) :
      drawsSinceLoad count (core.loads image) = 0 := by
    rw [Core.loads, if_pos accepted]
    rfl
  cases call with
  | load data variant =>
      rw [Core.call] at accepted
      rw [Core.episodes]
      cases checked : Image.ofBytes data variant with
      | error fault =>
          rw [checked] at accepted
          cases accepted
      | ok image =>
          rw [checked] at accepted
          exact loads accepted
  | loadImage image => exact loads accepted
  | step | run | tick | setKeys => cases isLoad

theorem ofSeed_congr {seed other : Int} (congruent : seed % 4294967296 = other % 4294967296) :
    RandomKey.ofSeed seed = .ofSeed other := by
  rw [RandomKey.ofSeed, RandomKey.ofSeed, congruent]

/-- Seeds that differ by a multiple of `2 ^ 32` are the same to a session. -/
theorem open?_of_seed {options : Options} {tracer : Option Log.Tracer} {opened : Session}
    (begun : open? options tracer = .ok opened) {seed : Int} (fits : RandomKey.SeedFits seed)
    (congruent : seed % 4294967296 = options.seed % 4294967296) :
    open? { options with seed } tracer = .ok opened := by
  rcases map_eq_ok_iff.mp begun with ⟨fresh, built, rfl⟩
  have sameParts : Machine.ofOptions { options with seed } = Machine.ofOptions options := by
    simp only [Machine.ofOptions, Machine.ofParts, ofSeed_congr congruent]
  rw [Machine.build] at built
  split at built
  · rw [open?, Machine.build, if_pos fits, sameParts, built]
    rfl
  · cases built

theorem keyed_of_open? {options : Options} {tracer : Option Log.Tracer} {opened : Session}
    (begun : open? options tracer = .ok opened) :
    opened.core.fresh.random = .ofSeed options.seed ∧
      Keyed options.seed 0 opened.core.machine := by
  rcases map_eq_ok_iff.mp begun with ⟨fresh, built, rfl⟩
  rcases Machine.parts_of_build built with ⟨_, _, _, _, _, _, rfl⟩
  exact ⟨rfl, rfl⟩

/-- The key of a session says how many random bytes were drawn since the last load, and the bytes
that programs see are those of one stream, which the seed gives up to a multiple of `2 ^ 32`. -/
theorem random_stream {options : Options} {tracer : Option Log.Tracer} {opened : Session}
    (begun : open? options tracer = .ok opened) (history : History) :
    let happened := (opened.core.account history).map Prod.snd
    Keyed options.seed (drawsSinceLoad 0 happened) (opened.after history).machine ∧
      (∀ before machine behind, happened = before ++ .stepped machine :: behind →
        Keyed options.seed (drawsSinceLoad 0 before) machine ∧
          ∀ x mask, machine.upcoming? = some ⟨.random, (x, mask)⟩ →
            ∃ next, machine.step = .ok next ∧
              next.v[x] = RandomKey.stream options.seed (drawsSinceLoad 0 before) &&& mask) ∧
      (∀ now call, call.isLoad = true → ((opened.after history).call now call).fault = none →
        Keyed options.seed 0 ((opened.after history).call now call).session.machine) ∧
      ∀ seed, seed % 4294967296 = options.seed % 4294967296 →
        RandomKey.stream seed = RandomKey.stream options.seed ∧
          (RandomKey.SeedFits seed → open? { options with seed } tracer = .ok opened) := by
  intro happened
  rcases keyed_of_open? begun with ⟨seeded, keyed⟩
  rcases onStream_account seeded keyed history with ⟨stream, last⟩
  rw [← after_core] at last
  refine ⟨last, ?_, ?_, ?_⟩
  · intro before machine behind split
    have stream : OnStream options.seed 0 happened := stream
    rw [split, onStream_append_iff] at stream
    have keyed : Keyed options.seed (drawsSinceLoad 0 before) machine := stream.2.1
    exact ⟨keyed, fun x mask => keyed.draw⟩
  · intro now call isLoad accepted
    have seeded : (opened.after history).core.fresh.random = .ofSeed options.seed := by
      rw [after_core, Core.fresh_after]
      exact seeded
    rcases (opened.after history).call_core now call with ⟨changed, reported⟩
    have loaded := (onStream_call seeded last call).2
    rw [drawsSinceLoad_of_load isLoad (reported.symm.trans accepted), ← changed] at loaded
    exact loaded
  · intro seed congruent
    refine ⟨?_, fun fits => open?_of_seed begun fits congruent⟩
    funext draw
    rw [RandomKey.stream, RandomKey.stream, ofSeed_congr congruent]

def drawing : History :=
  [(0, .load [0xC3, 0xFF, 0xC4, 0x0F] none), (0, .run 2),
    (1, .load [0xC3, 0xFF, 0xC4, 0x0F] none), (1, .step)]

theorem random_stream_drawing :
    ∃ opened, open? { seed := 7, memorySize := 0x204, width := 8, height := 1 } none = .ok opened ∧
      open? { seed := 4294967303, memorySize := 0x204, width := 8, height := 1 } none =
        .ok opened ∧
      Keyed 7 1 (opened.after drawing).machine ∧
      (opened.after drawing).machine.v[3] = RandomKey.stream 7 0 ∧
      (opened.after (drawing.take 2)).machine.v[3] = RandomKey.stream 7 0 ∧
      (opened.after (drawing.take 2)).machine.v[4] = RandomKey.stream 7 1 &&& 0x0F := by
  let opened := ofMachine (Machine.ofParts 7 (.initial 0x204) (.blank 8 1) (.empty 16) false) none
  have begun : open? { seed := 7, memorySize := 0x204, width := 8, height := 1 } none =
      .ok opened := rfl
  have drawn : drawsSinceLoad 0 ((opened.core.account drawing).map Prod.snd) = 1 := by
    decide +kernel
  rcases random_stream begun drawing with ⟨keyed, _, _, congruent⟩
  rw [drawn] at keyed
  refine ⟨opened, begun, (congruent 4294967303 rfl).2 (by decide), keyed, ?_⟩
  decide +kernel

end Session

end Chip8
