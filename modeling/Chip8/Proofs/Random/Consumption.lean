import Mathlib.Control.Monad.Basic
import Mathlib.Data.List.Infix
import Chip8.Proofs.Machine.Cycles
import Chip8.Proofs.Runs.Acts

/-!
# Random words are taken one by one

The instruction that rolls a random byte takes the next byte of the stream each time it is carried
out, whatever its mask, and nothing else touches the stream. So the position in the stream is at every
point of a run the number of rolls before it, and which byte a roll takes depends on the seed and on
that number alone. Of the generator nothing is used but that it gives fixed words under a seed.
-/

namespace Chip8

/-- The register and the mask of an instruction that rolls a random byte: `Cxkk`. -/
def Instruction.roll? : Instruction → Option (Register × UInt8)
  | .random x kk => some (x, kk)
  | _ => none

/-- The roll of an act: none, unless it is a cycle that carries out an instruction that rolls. -/
def Moment.roll? (moment : Moment) : Option (Register × UInt8) :=
  match moment.act with
  | .cycle => moment.before.succeeds?.bind Instruction.roll?
  | _ => none

namespace Machine

def rolls (machine : Machine) (acts : List Act) : List (Register × UInt8) :=
  (machine.moments acts).filterMap Moment.roll?

/-- What a roll, or none, makes of the stream and of the registers, given the machine after it. -/
inductive Rolled (before after : Machine) : Option (Register × UInt8) → Prop where
  | none (random_eq : after.random = before.random) : Rolled before after none
  | byte {x : Register} {kk : UInt8} (random_eq : after.random = before.random.advance)
      (registers_eq : after.registers = before.registers.set x (before.random.byte &&& kk)) :
      Rolled before after (some (x, kk))

variable {machine after : Machine} {instruction : Instruction} {progress : Progress} {act : Act}

/-! ## The roll of an act -/

/-- An instruction that is carried out takes a byte exactly if it rolls. -/
theorem rolled_of_carried (carried : Carried machine instruction progress after) :
    Rolled machine after instruction.roll? := by
  cases carried with
  | random => exact .byte rfl rfl
  | clear | back | call | wait | draw => exact .none rfl
  | flow about | transfer about | store about =>
      have quiet : instruction.roll? = none := by
        cases instruction <;> first | rfl | cases about
      rw [quiet]
      exact .none rfl

theorem rolled_cycle (machine : Machine) :
    Rolled machine machine.cycle.machine (Moment.roll? ⟨machine, .cycle⟩) := by
  have step := machine.stepped
  simp only [Moment.roll?]
  generalize machine.succeeds? = found, machine.cycle.machine = after at step ⊢
  cases step with
  | unfetched | failed => exact .none rfl
  | @carried opcode instruction progress after carried =>
      have rolled := rolled_of_carried carried
      simp only [Option.bind_some]
      generalize instruction.roll? = roll at rolled ⊢
      cases rolled with
      | none random_eq => exact .none random_eq
      | byte random_eq registers_eq => exact .byte random_eq registers_eq

/-- Only cycles touch the stream, so every act does to it what its roll says. -/
theorem rolled_act (machine : Machine) (act : Act) :
    Rolled machine (machine.act act) (Moment.roll? ⟨machine, act⟩) := by
  by_cases cycles : act = .cycle
  · subst cycles
    exact machine.rolled_cycle
  · have quiet : Moment.roll? ⟨machine, act⟩ = none := by
      cases act <;> first | rfl | contradiction
    rcases machine.act_changes cycles with ⟨_, _, _, _, _, changed⟩
    rw [quiet, changed]
    exact .none rfl

theorem roll?_eq_some_iff {x : Register} {kk : UInt8} :
    Moment.roll? ⟨machine, act⟩ = some (x, kk) ↔
      act = .cycle ∧ machine.succeeds? = some (.random x kk) := by
  constructor
  · intro rolls
    cases act with
    | cycle =>
        rcases Option.bind_eq_some_iff.mp rolls with ⟨instruction, succeeds, rolls⟩
        cases instruction <;> cases rolls
        exact ⟨rfl, succeeds⟩
    | _ => cases rolls
  · intro rolls
    rcases rolls with ⟨rfl, succeeds⟩
    simp only [Moment.roll?, succeeds, Option.bind_some, Instruction.roll?]

/-- A roll puts the masked next byte into its register. -/
theorem act_of_roll {x : Register} {kk : UInt8}
    (rolls : Moment.roll? ⟨machine, act⟩ = some (x, kk)) :
    (machine.act act).random = machine.random.advance ∧
      (machine.act act).registers = machine.registers.set x (machine.random.byte &&& kk) := by
  have rolled := machine.rolled_act act
  rw [rolls] at rolled
  cases rolled with
  | byte random_eq registers_eq => exact ⟨random_eq, registers_eq⟩

theorem random_act_of_quiet
    (quiet : ∀ x kk, ¬ (act = .cycle ∧ machine.succeeds? = some (.random x kk))) :
    (machine.act act).random = machine.random := by
  have none : Moment.roll? ⟨machine, act⟩ = none := by
    apply Option.eq_none_iff_forall_ne_some.mpr
    intro roll rolls
    exact quiet _ _ (roll?_eq_some_iff.mp rolls)
  have rolled := machine.rolled_act act
  rw [none] at rolled
  cases rolled with
  | none random_eq => exact random_eq

/-! ## The rolls of a run -/

/-- Acts move the stream on by the number of their rolls. -/
theorem random_afterActs (machine : Machine) (acts : List Act) :
    (machine.afterActs acts).random =
      ⟨machine.random.bytes, machine.random.position + (machine.rolls acts).length⟩ := by
  induction acts generalizing machine with
  | nil => rfl
  | cons act rest ih =>
      have later := ih (machine.act act)
      have rolled := machine.rolled_act act
      simp only [rolls, moments, List.filterMap_cons, afterActs_cons] at later ⊢
      generalize Moment.roll? ⟨machine, act⟩ = roll at rolled ⊢
      cases rolled with
      | none random_eq =>
          rw [random_eq] at later
          exact later
      | byte random_eq =>
          rw [random_eq] at later
          simp only [later, Random.Stream.advance, List.length_cons, Nat.add_assoc,
            Nat.add_comm 1]

theorem random_of_build {config : Config} {seed : UInt64} {source : Random.Source}
    (seeded : config.seed = some seed) (built : build config source = .ok machine) :
    machine.random = ⟨source.seeded seed, 0⟩ := by
  rcases build_eq_ok_iff.mp built with ⟨_, rfl⟩
  simp only [initial, seeded]
  rfl

/-- Behind acts of a machine that was built with a seed the stream stands at the number of rolls. -/
theorem random_afterActs_of_build {config : Config} {seed : UInt64} {source : Random.Source}
    (seeded : config.seed = some seed) (built : build config source = .ok machine)
    (acts : List Act) :
    (machine.afterActs acts).random =
      ⟨source.seeded seed, (machine.rolls acts).length⟩ := by
  rw [random_afterActs, random_of_build seeded built, Nat.zero_add]

/-- Let a generator yield a row of words under the seed of a machine. At every point of every run the
stream of the machine stands at the number of rolls so far. The roll that is carried out there puts the
low byte of the word at this number, masked, into its register, leaves all other registers as they are
and moves on by one; every other act leaves the stream where it is. -/
theorem rolls_follow_stream {config : Config} {seed : UInt64} {source : Random.Source}
    {word : Nat → UInt32} {start : Machine} (yields : source.Yields seed word)
    (seeded : config.seed = some seed) (built : build config source = .ok start)
    (requests : List Request) :
    let stream (count : Nat) : Random.Stream := ⟨source.seeded seed, count⟩
    (start.afterAll requests).random =
      stream (start.rolls (start.actsAll requests)).length ∧
    ∀ earlier act, earlier ++ [act] <+: start.actsAll requests →
      let before := start.afterActs earlier
      let after := before.act act
      let count := (start.rolls earlier).length
      before.random = stream count ∧
        (∀ x kk, act = .cycle ∧ before.succeeds? = some (.random x kk) →
          after.v x = (word count).toUInt8 &&& kk ∧
            (∀ other ≠ x, after.v other = before.v other) ∧
            after.registers.index = before.registers.index ∧
            after.registers.delay = before.registers.delay ∧
            after.registers.sound = before.registers.sound ∧
            after.random = stream (count + 1)) ∧
        ((∀ x kk, ¬ (act = .cycle ∧ before.succeeds? = some (.random x kk))) →
          after.random = stream count) := by
  intro stream
  refine ⟨?_, ?_⟩
  · rw [← afterActs_actsAll]
    exact random_afterActs_of_build seeded built _
  · intro earlier act _ before after count
    have there : before.random = stream count := random_afterActs_of_build seeded built earlier
    refine ⟨there, ?_, ?_⟩
    · intro x kk rolls
      rcases act_of_roll (roll?_eq_some_iff.mpr rolls) with ⟨random_eq, registers_eq⟩
      rw [there] at random_eq registers_eq
      refine ⟨?_, ?_, ?_, ?_, ?_, random_eq⟩
      · rw [← yields count]
        simp only [v, after, registers_eq, Registers.get_set, if_true]
        rfl
      · intro other different
        simp only [v, after, registers_eq, Registers.get_set, if_neg different.symm]
      all_goals
        simp only [after, registers_eq]
        rfl
    · intro quiet
      exact (random_act_of_quiet quiet).trans there

set_option maxRecDepth 8000 in
theorem rolls_follow_stream_of_wait :
    ∃ config start, config.seed = some 7 ∧ build config .zeroKeyed = .ok start ∧
      let program : Act := .load [0xC0, 0xFF, 0xC1, 0x00, 0xF5, 0x0A, 0xC2, 0x0F] 0x200
      let requests := [program.request, .frame 5, .setKey 9 true, .frame 2]
      let earlier := [program, .cycle, .cycle, .cycle, .tick, .setKey 9 true, .cycle]
      earlier ++ [.cycle] <+: start.actsAll requests ∧
        (start.afterActs earlier).succeeds? = some (.random 2 0x0F) ∧
        ((start.afterActs earlier).act .cycle).v 2 =
          (Random.Source.wordAt (Random.Source.keyOfSeed 7) 2).toUInt8 &&& 0x0F ∧
        ((start.afterActs earlier).act .cycle).v 2 = 0x0A ∧
        ((start.afterActs earlier).act .cycle).random.position = 3 := by
  let start := initial { seed := some 7 } (Memory.blank.write 0x050 Font.bytes) .zeroKeyed
  have built : build { seed := some 7 } .zeroKeyed = .ok start := rfl
  refine ⟨_, start, rfl, built, ?_⟩
  intro program requests earlier
  have yields := Random.Source.chacha_yields (.replicate 8 0) 7
  rcases rolls_follow_stream yields rfl built requests with ⟨_, points⟩
  have seen : earlier ++ [.cycle] <+: start.actsAll requests ∧
      (start.afterActs earlier).succeeds? = some (.random 2 0x0F) ∧
      (start.rolls earlier).length = 2 ∧
      (Random.Source.wordAt (Random.Source.keyOfSeed 7) 2).toUInt8 &&& 0x0F = 0x0A := by
    decide +kernel
  rcases seen with ⟨inside, rolls, count, masked⟩
  rcases points earlier .cycle inside with ⟨_, rolled, _⟩
  rcases rolled 2 0x0F ⟨rfl, rolls⟩ with ⟨value, _, _, _, _, moved⟩
  rw [count] at value moved
  exact ⟨inside, rolls, value, value.trans masked, congrArg Random.Stream.position moved⟩

end Machine

end Chip8
