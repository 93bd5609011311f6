import Chip8.Proofs.Random.Consumption
import Chip8.Proofs.Runs.Concealment

/-!
# What a seed can change

A machine shows its seed only through the bytes that its rolls put into registers, and a roll whose
mask is zero puts zero there whatever its byte is. So two machines that were built with different seeds
give the same replies to all requests, as long as no roll of the first shows a bit of its byte. Their
streams go on side by side then, each with its own bytes and both at the same position.
-/

namespace Chip8

/-- A roll with the mask zero does not show which stream its byte is taken from. -/
theorem Moment.blind_of_masked {moment : Moment}
    (masked : ∀ roll, moment.roll? = some roll → roll.2 = 0) (seed : Option UInt64)
    (bytes : Nat → UInt8) : moment.Blind { moment.before.hidden with seed, bytes } := by
  intro cycles opcode instruction found known
  cases instruction with
  | call nnn => exact rfl
  | random x kk =>
      have succeeds : moment.before.succeeds? = some (.random x kk) :=
        Machine.succeeds?_of_met found known rfl
      have zero : kk = 0 := masked (x, kk) (Machine.roll?_eq_some_iff.mpr ⟨cycles, succeeds⟩)
      subst zero
      simp only [Machine.Blind, UInt8.and_zero]
  | _ => trivial

namespace Machine

/-- The same machine as if it had been built with another seed: the seed of its configuration and the
bytes of its stream are others, the position in the stream is the same. -/
def withSeed (machine : Machine) (source : Random.Source) (seed : UInt64) : Machine :=
  { machine with
    config := { machine.config with seed := some seed }
    random := { machine.random with bytes := source.seeded seed } }

variable {machine : Machine} {requests : List Request}

/-- A machine with another seed meets requests as before, if no roll shows a bit of its byte. -/
theorem performAll_withSeed (source : Random.Source) (seed : UInt64)
    (masked : ∀ roll ∈ machine.rolls (machine.actsAll requests), roll.2 = 0) :
    (machine.withSeed source seed).performAll requests =
      (machine.performAll requests).map fun reply =>
        { reply with machine := reply.machine.withSeed source seed } := by
  have blind : ∀ moment ∈ machine.moments (machine.actsAll requests), moment.Blind
      { machine.hidden with seed := some seed, bytes := source.seeded seed } := by
    intro moment inside
    rw [← machine.hidden_moments _ moment inside]
    apply Moment.blind_of_masked
    intro roll rolls
    exact masked roll (List.mem_filterMap.mpr ⟨moment, inside, rolls⟩)
  refine (performAll_concealing blind).trans (List.map_congr_left ?_)
  intro reply member
  simp only [Reply.concealing, ← machine.hidden_performAll requests reply member]
  rfl

/-- Of two configurations that differ in their seeds only, building tells the same, and the machines
built from them differ in the seed and the bytes of the stream only. They give the same replies to
requests, in result and in what is reported, and each request leaves them with no other difference, as
long as no roll of the first machine has a mask other than zero. -/
theorem seed_unseen_of_masked (config : Config) {first second : UInt64}
    {source other : Random.Source} {left right : Machine}
    (leftBuilt : build { config with seed := some first } source = .ok left)
    (rightBuilt : build { config with seed := some second } other = .ok right)
    (masked : ∀ roll ∈ left.rolls (left.actsAll requests), roll.2 = 0) :
    (boot { config with seed := some first } source).log.map Event.render =
        (boot { config with seed := some second } other).log.map Event.render ∧
      right = left.withSeed other second ∧
      right.performAll requests =
        (left.performAll requests).map fun reply =>
          { reply with machine := reply.machine.withSeed other second } := by
  have told : (boot { config with seed := some first } source).log.map Event.render =
      (boot { config with seed := some second } other).log.map Event.render := by
    simp only [boot, leftBuilt, rightBuilt]
    rfl
  rcases build_eq_ok_iff.mp leftBuilt with ⟨_, rfl⟩
  rcases build_eq_ok_iff.mp rightBuilt with ⟨_, rfl⟩
  have same : initial { config with seed := some second }
      (Memory.blank.write config.fontStart.toNat Font.bytes) other =
        (initial { config with seed := some first }
          (Memory.blank.write config.fontStart.toNat Font.bytes) source).withSeed other second := rfl
  refine ⟨told, same, ?_⟩
  rw [same]
  exact performAll_withSeed other second masked

set_option maxRecDepth 8000 in
theorem seed_unseen_of_masked_of_wait :
    ∃ left right,
      build { seed := some 7 } .zeroKeyed = .ok left ∧
      build { seed := some 8 } (.chacha (.replicate 8 1)) = .ok right ∧
      let requests := [.load [0xC3, 0x00, 0xC4, 0x00, 0xF5, 0x0A] 0x200, .frame 5]
      left.rolls (left.actsAll requests) = [(3, 0), (4, 0)] ∧
        left.random.byte ≠ right.random.byte ∧
        right.performAll requests =
          (left.performAll requests).map fun reply =>
            { reply with machine := reply.machine.withSeed (.chacha (.replicate 8 1)) 8 } := by
  let memory := Memory.blank.write 0x050 Font.bytes
  let left := initial { seed := some 7 } memory .zeroKeyed
  let right := initial { seed := some 8 } memory (.chacha (.replicate 8 1))
  have leftBuilt : build { seed := some 7 } .zeroKeyed = .ok left := rfl
  have rightBuilt : build { seed := some 8 } (.chacha (.replicate 8 1)) = .ok right := rfl
  refine ⟨left, right, leftBuilt, rightBuilt, ?_⟩
  intro requests
  have seen : left.rolls (left.actsAll requests) = [(3, 0), (4, 0)] ∧
      left.random.byte ≠ right.random.byte := by
    decide +kernel
  rcases seen with ⟨rolls, differ⟩
  have masked : ∀ roll ∈ left.rolls (left.actsAll requests), roll.2 = 0 := by
    rw [rolls]
    simp
  exact ⟨rolls, differ, (seed_unseen_of_masked {} leftBuilt rightBuilt masked).2.2⟩

end Machine

end Chip8
