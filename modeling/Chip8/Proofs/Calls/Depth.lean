import Mathlib.Control.Monad.Basic
import Chip8.Proofs.Faults.Conditions
import Chip8.Proofs.Runs.Concealment

/-!
# How deep calls may nest

The limit on open calls is only ever seen in the refusal of a call. A machine that allows more open
calls meets requests as one that allows fewer does, reply for reply and machine for machine, for as
long as the latter refuses no call.
-/

namespace Chip8.Machine

def withDepth (machine : Machine) (depth : Nat) : Machine :=
  { machine with config := { machine.config with stackDepth := depth } }

variable {machine : Machine} {deeper : Nat} {requests : List Request}

theorem push_of_room {stack : CallStack} {limit : Nat} (enough : limit ≤ deeper)
    (room : stack.depth < limit) (address : UInt16) :
    stack.push deeper address = stack.push limit address := by
  simp only [CallStack.push, if_pos room, if_pos (Nat.lt_of_lt_of_le room enough)]

theorem result_of_full {opcode : Opcode} {nnn : Address}
    (found : machine.memory.opcodeAt machine.pc = .ok opcode)
    (known : Instruction.ofOpcode? opcode = some (.call nnn))
    (full : machine.config.stackDepth ≤ machine.stack.depth) :
    machine.cycle.result = .error (.stackOverflow machine.config.stackDepth) := by
  rw [machine.stack.depth_eq] at full
  have refused : (machine.fetched opcode).execute (.call nnn) = _ := execute_of_refuses (.call full)
  rw [cycle_of_refused found known refused]
  rfl

/-- Unless a call is refused, nothing shows a larger limit. -/
theorem blind_of_met {moment : Moment} (enough : moment.before.config.stackDepth ≤ deeper)
    (met : moment.act = .cycle →
      moment.before.cycle.result ≠ .error (.stackOverflow moment.before.config.stackDepth)) :
    moment.Blind { moment.before.hidden with depth := deeper } := by
  intro cycles opcode instruction found known
  cases instruction with
  | call nnn =>
      have room : moment.before.stack.depth < moment.before.config.stackDepth := by
        apply Nat.lt_of_not_le
        intro full
        exact met cycles (result_of_full found known full)
      exact push_of_room enough room _
  | random x kk => exact rfl
  | _ => trivial

/-- A machine with a larger limit on open calls meets requests as before, if none of them is refused
for the smaller limit. -/
theorem performAll_withDepth (enough : machine.config.stackDepth ≤ deeper)
    (met : ∀ reply ∈ machine.performAll requests,
      reply.result ≠ .error (.stackOverflow machine.config.stackDepth)) :
    (machine.withDepth deeper).performAll requests =
      (machine.performAll requests).map fun reply =>
        { reply with machine := reply.machine.withDepth deeper } := by
  have blind : ∀ moment ∈ machine.moments (machine.actsAll requests),
      moment.Blind { machine.hidden with depth := deeper } := by
    intro moment inside
    have same := machine.hidden_moments _ moment inside
    have limit : moment.before.config.stackDepth = machine.config.stackDepth :=
      congrArg Hidden.depth same
    rw [← same]
    apply blind_of_met
    · rw [limit]
      exact enough
    · intro cycles failed
      rw [limit] at failed
      rcases performAll_of_failed inside cycles failed with ⟨reply, member, result⟩
      exact met reply member result
  refine (performAll_concealing blind).trans (List.map_congr_left ?_)
  intro reply member
  have same := machine.hidden_performAll requests reply member
  simp only [Reply.concealing, ← same]
  rfl

/-- Of two machines with the same seed that differ only in how many calls may be open, the one that
allows more gives the same replies to requests as the other and is left the same by each, for as long
as the other refuses no call. -/
theorem deeper_stack_agrees {config : Config} {seed : UInt64} {source : Random.Source}
    {unseeded : Nat → UInt8} {shallow deep : Machine}
    (seeded : config.seed = some seed) (enough : config.stackDepth ≤ deeper)
    (shallowBuilt : build config source = .ok shallow)
    (deepBuilt : build { config with stackDepth := deeper } { source with unseeded } = .ok deep)
    (met : ∀ reply ∈ shallow.performAll requests,
      reply.result ≠ .error (.stackOverflow config.stackDepth)) :
    deep = shallow.withDepth deeper ∧
      deep.performAll requests =
        (shallow.performAll requests).map fun reply =>
          { reply with machine := reply.machine.withDepth deeper } := by
  rcases build_eq_ok_iff.mp shallowBuilt with ⟨_, rfl⟩
  rcases build_eq_ok_iff.mp deepBuilt with ⟨_, rfl⟩
  have same : initial { config with stackDepth := deeper }
      (Memory.blank.write config.fontStart.toNat Font.bytes) { source with unseeded } =
        (initial config (Memory.blank.write config.fontStart.toNat Font.bytes)
          source).withDepth deeper := by
    simp only [initial, seeded, withDepth]
  refine ⟨same, ?_⟩
  rw [same]
  exact performAll_withDepth enough met

set_option maxRecDepth 8000 in
theorem deeper_stack_agrees_of_two_calls :
    ∃ config shallow deep, config.seed = some 7 ∧ config.stackDepth = 2 ∧
      build config .zeroKeyed = .ok shallow ∧
      build { config with stackDepth := 5 } (.chacha (.replicate 8 1)) = .ok deep ∧
      let program := [0x22, 0x04, 0x12, 0x02, 0xC0, 0xFF, 0x22, 0x0A, 0x00, 0xEE, 0xC1, 0xFF,
        0x00, 0xEE, 0xFF, 0xFF]
      let requests := [.load program 0x200, .frame 4, .cycle, .tick, .frame 3, .takeRedraw]
      (shallow.afterAll (requests.take 2)).stack.depth = 2 ∧
        (shallow.afterAll requests).stack.depth = 0 ∧
        deep.performAll requests =
          (shallow.performAll requests).map fun reply =>
            { reply with machine := reply.machine.withDepth 5 } := by
  let config : Config := { seed := some 7, stackDepth := 2 }
  let memory := Memory.blank.write 0x050 Font.bytes
  let shallow := initial config memory .zeroKeyed
  have shallowBuilt : build config .zeroKeyed = .ok shallow := rfl
  have deepBuilt : build { config with stackDepth := 5 } (.chacha (.replicate 8 1)) =
    .ok (initial { config with stackDepth := 5 } memory (.chacha (.replicate 8 1))) := rfl
  refine ⟨config, shallow, _, rfl, rfl, shallowBuilt, deepBuilt, ?_⟩
  intro program requests
  have seen : (shallow.afterAll (requests.take 2)).stack.depth = 2 ∧
      (shallow.afterAll requests).stack.depth = 0 ∧
      ∀ reply ∈ shallow.performAll requests,
        reply.result ≠ .error (.stackOverflow config.stackDepth) := by
    decide +kernel
  rcases seen with ⟨full, closed, met⟩
  exact ⟨full, closed, (deeper_stack_agrees rfl (by decide) shallowBuilt deepBuilt met).2⟩

end Chip8.Machine
