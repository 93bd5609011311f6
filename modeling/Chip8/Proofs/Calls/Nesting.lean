import Mathlib.Data.List.Infix
import Chip8.Proofs.Calls.Matching
import Chip8.Proofs.Machine.Cycles
import Chip8.Proofs.Runs.Acts

/-!
# Calls nest

At every point of every run the stack of a machine holds the return addresses of the calls that were
carried out and not yet returned from. A call whose depth is kept until one act falls back to it is
returned from by that act, which goes on right behind the call with the stack that it found.
-/

namespace Chip8

/-- The turn that an instruction takes when it is carried out, given the address behind it. -/
def Instruction.turn? (pc : UInt16) : Instruction → Option Turn
  | .call _ => some (.call pc)
  | .returnFromSubroutine => some .back
  | _ => none

/-- The turn that an act takes: none, unless it is a cycle that calls or returns. -/
def Moment.turn? (moment : Moment) : Option Turn :=
  match moment.act with
  | .cycle => moment.before.succeeds?.bind (Instruction.turn? (moment.before.pc + 2))
  | _ => none

namespace Machine

def turns (machine : Machine) (acts : List Act) : List Turn :=
  (machine.moments acts).filterMap Moment.turn?

/-- What a turn, or none, does to a stack, given the machine after it. -/
inductive Turned (stack : CallStack) (after : Machine) : Option Turn → Prop where
  | call {address : UInt16} (opened : after.stack = stack.cons address) :
      Turned stack after (some (.call address))
  | back (closed : stack = after.stack.cons after.pc) : Turned stack after (some .back)
  | none (same : after.stack = stack) : Turned stack after none

variable {machine after : Machine} {instruction : Instruction}
variable {progress : Progress}

/-! ## The turn of an act -/

/-- An instruction that is carried out does to the stack what its turn says. -/
theorem turned_of_carried (carried : Carried machine instruction progress after) :
    Turned machine.stack after (instruction.turn? machine.pc) := by
  cases carried with
  | back opened => exact .back opened
  | call room => exact .call rfl
  | clear | wait | random | draw => exact .none rfl
  | flow about | transfer about | store about =>
      have quiet : instruction.turn? machine.pc = none := by
        cases instruction <;> first | rfl | cases about
      rw [quiet]
      exact .none rfl

theorem turned_cycle (machine : Machine) :
    Turned machine.stack machine.cycle.machine (Moment.turn? ⟨machine, .cycle⟩) := by
  have step := machine.stepped
  simp only [Moment.turn?]
  generalize machine.succeeds? = instruction, machine.cycle.machine = after at step ⊢
  cases step with
  | unfetched | failed => exact .none rfl
  | carried carried => exact turned_of_carried carried

/-- Only cycles touch the stack, so every act does to it what its turn says. -/
theorem turned_act (machine : Machine) (act : Act) :
    Turned machine.stack (machine.act act) (Moment.turn? ⟨machine, act⟩) := by
  by_cases cycles : act = .cycle
  · subst cycles
    exact machine.turned_cycle
  · have quiet : Moment.turn? ⟨machine, act⟩ = none := by
      cases act <;> first | rfl | contradiction
    rcases machine.act_changes cycles with ⟨_, _, _, _, _, changed⟩
    rw [quiet, changed]
    exact .none rfl

/-! ## The turns of a run -/

/-- The stack after acts is what their turns make of the stack before. -/
theorem settle_turns (machine : Machine) (acts : List Act) :
    settle (machine.turns acts) machine.stack.returns =
      some (machine.afterActs acts).stack.returns := by
  induction acts generalizing machine with
  | nil => rfl
  | cons act rest ih =>
      have later := ih (machine.act act)
      have turned := machine.turned_act act
      simp only [turns, moments, List.filterMap_cons, afterActs_cons] at later ⊢
      generalize Moment.turn? ⟨machine, act⟩ = turn at turned ⊢
      cases turned with
      | call opened =>
          rw [opened] at later
          exact later
      | back closed =>
          rw [closed]
          exact later
      | none same =>
          rw [same] at later
          exact later

/-! ## Returning from a call -/

section Returning

variable {address : UInt16} {below : List UInt16}

/-- Acts that stay deeper than a stack leave the return address above it where it is. -/
theorem suffix_of_deeper {acts : List Act} (kept : (address :: below) <:+ machine.stack.returns)
    (deeper : ∀ point, point <+: acts →
      below.length < (machine.afterActs point).stack.returns.length) :
    (address :: below) <:+ (machine.afterActs acts).stack.returns := by
  induction acts generalizing machine with
  | nil => exact kept
  | cons act rest ih =>
      apply ih
      · have turned := machine.turned_act act
        have first := deeper [act] (List.prefix_append [act] rest)
        simp only [afterActs_cons, afterActs_nil] at first
        generalize Moment.turn? ⟨machine, act⟩ = turn at turned
        cases turned with
        | call opened =>
            rw [opened]
            exact kept.trans (List.suffix_cons _ _)
        | none same =>
            rw [same]
            exact kept
        | back closed =>
            rw [closed] at kept
            rcases List.suffix_cons_iff.mp kept with whole | inner
            · cases whole
              exact absurd first (Nat.lt_irrefl _)
            · exact inner
      · intro point inside
        exact deeper (act :: point) (List.cons_prefix_cons.mpr ⟨rfl, inside⟩)

/-- An act that falls back to the stack below a return address goes on at that address. -/
theorem back_of_falls {act : Act} (kept : (address :: below) <:+ machine.stack.returns)
    (fell : (machine.act act).stack.returns.length = below.length) :
    Moment.turn? ⟨machine, act⟩ = some .back ∧ (machine.act act).pc = address ∧
      (machine.act act).stack.returns = below := by
  have deep := kept.length_le
  have turned := machine.turned_act act
  generalize Moment.turn? ⟨machine, act⟩ = turn at turned ⊢
  cases turned with
  | call opened =>
      rw [opened, CallStack.returns_cons, List.length_cons] at fell
      simp only [List.length_cons] at deep
      omega
  | none same =>
      rw [same] at fell
      simp only [List.length_cons] at deep
      omega
  | back closed =>
      rw [closed] at kept
      have whole := kept.eq_of_length (by simp only [List.length_cons, CallStack.returns_cons, fell])
      cases whole
      exact ⟨rfl, rfl, rfl⟩

end Returning

theorem turn?_eq_back {act : Act} (back : Moment.turn? ⟨machine, act⟩ = some .back) :
    act = .cycle ∧ machine.succeeds? = some .returnFromSubroutine := by
  cases act with
  | cycle =>
      rcases Option.bind_eq_some_iff.mp back with ⟨instruction, succeeds, turns⟩
      cases instruction <;> cases turns
      exact ⟨rfl, succeeds⟩
  | _ => cases back

theorem stack_of_call {nnn : Address} (calls : machine.succeeds? = some (.call nnn)) :
    machine.cycle.machine.stack = machine.stack.cons (machine.pc + 2) := by
  have turn : Moment.turn? ⟨machine, .cycle⟩ = some (.call (machine.pc + 2)) := by
    change machine.succeeds?.bind (Instruction.turn? (machine.pc + 2)) = _
    rw [calls]
    rfl
  have turned := machine.turned_cycle
  rw [turn] at turned
  cases turned with
  | call opened => exact opened

theorem toNat_pc_of_succeeds (succeeds : machine.succeeds? = some instruction) :
    (machine.pc + 2).toNat = machine.pc.toNat + 2 := by
  cases found : machine.memory.opcodeAt machine.pc with
  | ok opcode =>
      rcases toNat_pc_fetched found with ⟨moved, _⟩
      exact moved
  | error fault =>
      rw [succeeds?, cycle_of_unfetched found] at succeeds
      cases succeeds

/-- At every point of a run the stack holds the calls of the run that no return matches. From a call
that is carried out on, acts that stay deeper than the call was made lead back to its depth only by
its return, which goes on behind the call with the stack that the call found. -/
theorem calls_nest {config : Config} {source : Random.Source} {start : Machine}
    (built : build config source = .ok start) :
    (∀ requests acts, acts <+: start.actsAll requests →
      ∀ addresses, OpenCalls (start.turns acts) addresses ↔
        addresses = (start.afterActs acts).stack.returns) ∧
    ∀ (machine : Machine) nnn, machine.succeeds? = some (.call nnn) →
      ∀ requests earlier act, earlier ++ [act] <+: machine.cycle.machine.actsAll requests →
        (∀ point, point <+: earlier → machine.stack.returns.length <
          (machine.cycle.machine.afterActs point).stack.returns.length) →
        (machine.cycle.machine.afterActs (earlier ++ [act])).stack.returns.length =
          machine.stack.returns.length →
        let last := machine.cycle.machine.afterActs earlier
        act = .cycle ∧ last.succeeds? = some .returnFromSubroutine ∧
          last.cycle.machine.pc.toNat = machine.pc.toNat + 2 ∧
          last.cycle.machine.stack = machine.stack := by
  constructor
  · intro requests acts point addresses
    have settled := start.settle_turns acts
    rcases build_eq_ok_iff.mp built with ⟨_, rfl⟩
    rw [openCalls_iff_settle]
    constructor
    · intro left
      exact Option.some.inj (left.symm.trans settled)
    · intro same
      rw [same]
      exact settled
  · intro machine nnn calls requests earlier act point deeper fell
    have opened := stack_of_call calls
    have kept : ((machine.pc + 2) :: machine.stack.returns) <:+
        machine.cycle.machine.stack.returns := by
      rw [opened]
      exact List.suffix_refl _
    rw [afterActs_append] at fell
    rcases back_of_falls (suffix_of_deeper kept deeper) fell with ⟨back, target, same⟩
    rcases turn?_eq_back back with ⟨rfl, returns⟩
    refine ⟨rfl, returns, ?_, CallStack.ext same⟩
    rw [← toNat_pc_of_succeeds calls, ← target]
    rfl

set_option maxRecDepth 8000 in
theorem calls_nest_of_two_calls :
    ∃ start machine : Machine, build .standard .zeroKeyed = .ok start ∧
      machine = start.afterAll
        [.load [0x22, 0x04, 0x12, 0x02, 0x22, 0x08, 0x00, 0xEE, 0x00, 0xEE] 0x200] ∧
      OpenCalls (start.turns (start.actsAll
        [.load [0x22, 0x04, 0x12, 0x02, 0x22, 0x08, 0x00, 0xEE, 0x00, 0xEE] 0x200, .frame 2]))
        [0x206, 0x202] ∧
      let last := machine.cycle.machine.afterActs [.cycle, .tick, .cycle]
      last.succeeds? = some .returnFromSubroutine ∧
        last.cycle.machine.pc.toNat = machine.pc.toNat + 2 ∧
        last.cycle.machine.stack = machine.stack := by
  have built := build_standard .zeroKeyed
  rcases calls_nest built with ⟨points, nested⟩
  refine ⟨_, _, built, rfl, ?_, ?_⟩
  · exact (points _ _ (List.prefix_refl _) _).mpr (by decide +kernel)
  · refine (nested _ ⟨0x204, by decide⟩ ?_ [.cycle, .tick, .frame 3] [.cycle, .tick, .cycle] .cycle
      ?_ ?_ ?_).2
    · decide +kernel
    · decide +kernel
    · simp only [← List.mem_inits]
      decide +kernel
    · decide +kernel

end Machine

end Chip8
