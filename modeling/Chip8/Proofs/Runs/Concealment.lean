import Chip8.Proofs.Machine.Cycles
import Chip8.Proofs.Runs.Lockstep

/-!
# What programs cannot look at

How many calls may be open, the seed and the row of random bytes are fixed when a machine is built,
and no instruction reads them as a whole. A program meets the first only as the limit that refuses a
call and the last only through the bytes that it draws. So a machine with other such parts does the
same and tells the same, as long as no call and no draw shows the difference.

`hidden_act` says that these parts never change. `execute_concealing` compares an instruction under
two choices of them, and `performAll_concealing` every run of requests.
-/

namespace Chip8

/-- What a program cannot look at: how many calls may be open, the seed, and the row of random
bytes. -/
structure Hidden where
  depth : Nat
  seed : Option UInt64
  bytes : Nat → UInt8

namespace Machine

def hidden (machine : Machine) : Hidden :=
  ⟨machine.config.stackDepth, machine.config.seed, machine.random.bytes⟩

/-- The same machine with other hidden parts. -/
def concealing (machine : Machine) (hidden : Hidden) : Machine :=
  { machine with
    config := { machine.config with stackDepth := hidden.depth, seed := hidden.seed }
    random := { machine.random with bytes := hidden.bytes } }

def Reply.concealing {α : Type} (reply : Reply α) (hidden : Hidden) : Reply α :=
  { reply with machine := reply.machine.concealing hidden }

/-- The instruction does not show the difference: a call is met or refused under the other limit as it
is under its own, and a draw gives the same masked byte. -/
def Blind (machine : Machine) (hidden : Hidden) : Instruction → Prop
  | .call _ =>
      machine.stack.push hidden.depth machine.pc =
        machine.stack.push machine.config.stackDepth machine.pc
  | .random _ kk =>
      (machine.concealing hidden).random.byte &&& kk = machine.random.byte &&& kk
  | _ => True

variable {machine : Machine} {hidden : Hidden} {instruction : Instruction}

/-- The hidden parts stay as they were when the machine was built. -/
theorem hidden_act (machine : Machine) (act : Act) : (machine.act act).hidden = machine.hidden := by
  by_cases cycles : act = .cycle
  · subst cycles
    have step := machine.stepped
    rw [act_cycle]
    generalize machine.succeeds? = found, machine.cycle.machine = after at step ⊢
    cases step with
    | unfetched | failed => rfl
    | carried carried => cases carried <;> rfl
  · rcases machine.act_changes cycles with ⟨_, _, _, _, _, changed⟩
    rw [changed]
    rfl

theorem hidden_moments (machine : Machine) (acts : List Act) :
    ∀ moment ∈ machine.moments acts, moment.before.hidden = machine.hidden :=
  moments_induction (fun before act same => (before.hidden_act act).trans same) rfl acts

theorem hidden_performAll (machine : Machine) (requests : List Request) :
    ∀ reply ∈ machine.performAll requests, reply.machine.hidden = machine.hidden :=
  performAll_induction (fun before act same => (before.hidden_act act).trans same) rfl requests

/-- An instruction that does not show the difference does the same with other hidden parts. -/
theorem execute_concealing (blind : machine.Blind hidden instruction) :
    (machine.concealing hidden).execute instruction =
      (machine.execute instruction).map fun outcome =>
        (outcome.1, outcome.2.concealing hidden) := by
  cases instruction with
  | returnFromSubroutine =>
      simp only [execute, concealing]
      cases machine.stack.pop <;> rfl
  | call nnn =>
      simp only [execute, concealing]
      rw [show machine.stack.push hidden.depth machine.pc = _ from blind]
      cases machine.stack.push machine.config.stackDepth machine.pc <;> rfl
  | random x kk =>
      simp only [execute]
      rw [show (machine.concealing hidden).random.byte &&& kk = _ from blind]
      rfl
  | draw x y n =>
      simp only [execute, drawSprite, concealing]
      cases machine.memory.slice machine.registers.index n.val <;> rfl
  | skipIfPressed x | skipIfNotPressed x =>
      simp only [execute, keyIn, concealing, v]
      cases Key.ofByte (machine.registers.get x) <;> rfl
  | storeBcd x =>
      simp only [execute, storeAtIndex, concealing, v]
      cases machine.memory.load _ machine.registers.index <;> rfl
  | storeRegisters x =>
      simp only [execute, storeAtIndex, concealing]
      cases machine.memory.load _ machine.registers.index <;> rfl
  | loadRegisters x =>
      simp only [execute, fetchRegisters, concealing]
      cases machine.memory.slice machine.registers.index _ <;> rfl
  | waitForKey x =>
      simp only [execute, awaitKey, concealing]
      cases machine.keypad.lowest? <;> rfl
  | _ => rfl

theorem fetched_concealing (machine : Machine) (hidden : Hidden) (opcode : Opcode) :
    (machine.concealing hidden).fetched opcode = (machine.fetched opcode).concealing hidden := rfl

theorem callEvents_concealing (before after : Machine) (hidden : Hidden)
    (instruction : Instruction) :
    callEvents instruction (before.concealing hidden) (after.concealing hidden) =
      callEvents instruction before after := by
  cases instruction <;> rfl

/-- A cycle whose instruction does not show the difference does and tells the same. -/
theorem cycle_concealing
    (blind : ∀ opcode instruction, machine.memory.opcodeAt machine.pc = .ok opcode →
      Instruction.ofOpcode? opcode = some instruction →
        (machine.fetched opcode).Blind hidden instruction) :
    (machine.concealing hidden).cycle = machine.cycle.concealing hidden := by
  have there : (machine.concealing hidden).memory.opcodeAt (machine.concealing hidden).pc =
      machine.memory.opcodeAt machine.pc := rfl
  cases found : machine.memory.opcodeAt machine.pc with
  | error fault =>
      rw [cycle_of_unfetched found, cycle_of_unfetched (there.trans found)]
      rfl
  | ok opcode =>
      cases known : Instruction.ofOpcode? opcode with
      | none =>
          rw [cycle_of_unknown found known, cycle_of_unknown (there.trans found) known]
          rfl
      | some instruction =>
          have same : ((machine.concealing hidden).fetched opcode).execute instruction = _ :=
            execute_concealing (blind opcode instruction found known)
          cases met : (machine.fetched opcode).execute instruction with
          | error fault =>
              rw [met] at same
              rw [cycle_of_refused found known met,
                cycle_of_refused (there.trans found) known same]
              rfl
          | ok outcome =>
              rw [met] at same
              rw [cycle_of_executed found known met,
                cycle_of_executed (there.trans found) known same, fetched_concealing,
                callEvents_concealing]
              rfl

/-- What a host does between cycles it does whatever the hidden parts are. -/
theorem lockstep_concealing (hidden : Hidden) :
    Lockstep (fun left right => right = left.concealing hidden) Eq where
  start_eq same := by rw [same, concealing]
  write same _ _ := by rw [same, concealing, concealing]
  press same _ := by rw [same, concealing, concealing]
  tick same := by
    rw [same]
    exact ⟨rfl, rfl, rfl⟩
  same _ := rfl
  append earlier later := by rw [earlier, later]

theorem Reply.eq_concealing {α : Type} {left right : Reply α}
    (alike : left.Alike (fun left right => right = left.concealing hidden) Eq right) :
    right = left.concealing hidden := by
  rcases left with ⟨result, before, log⟩
  rcases right with ⟨_, _, _⟩
  rcases alike with ⟨rfl, rfl, rfl⟩
  rfl

end Machine

/-- A cycle of the moment carries out an instruction that does not show the difference. -/
def Moment.Blind (moment : Moment) (hidden : Hidden) : Prop :=
  moment.act = .cycle → ∀ opcode instruction,
    moment.before.memory.opcodeAt moment.before.pc = .ok opcode →
      Instruction.ofOpcode? opcode = some instruction →
        (moment.before.fetched opcode).Blind hidden instruction

namespace Machine

variable {machine : Machine} {hidden : Hidden}

theorem perform_concealing {request : Request}
    (blind : ∀ moment ∈ machine.moments (machine.acts request), moment.Blind hidden) :
    (machine.concealing hidden).perform request =
      (machine.perform request).concealing hidden := by
  apply Reply.eq_concealing
  apply (lockstep_concealing hidden).perform rfl
  · intro moment member cycles other same
    rw [same, cycle_concealing (blind moment member cycles)]
    exact ⟨rfl, rfl, rfl⟩
  · intro _
    exact ⟨rfl, rfl, rfl⟩

/-- Requests that never show the difference are met the same by a machine with other hidden parts. -/
theorem performAll_concealing {requests : List Request}
    (blind : ∀ moment ∈ machine.moments (machine.actsAll requests), moment.Blind hidden) :
    (machine.concealing hidden).performAll requests =
      (machine.performAll requests).map (Reply.concealing · hidden) := by
  induction requests generalizing machine with
  | nil => rfl
  | cons request rest ih =>
      rw [actsAll, moments_append, List.forall_mem_append, afterActs_acts] at blind
      rcases blind with ⟨first, later⟩
      simp only [performAll, List.map_cons, perform_concealing first]
      exact congrArg _ (ih later)

end Machine

end Chip8
