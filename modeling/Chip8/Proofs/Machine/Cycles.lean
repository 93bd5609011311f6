import Chip8.Machine.Cycle
import Chip8.Proofs.Instruction.Reading
import Chip8.Proofs.Machine.Execution
import Chip8.Proofs.Memory.Words

/-!
# How a cycle can go

A cycle stops in one of four ways: nothing can be fetched, the opcode is unknown, the instruction is
refused, or the instruction is carried out. `Cycled` lists them with the result and the machine that
each leaves, and `cycled` says that every cycle is one of them.

`succeeds?` names the instruction that a cycle carries out. What a cycle changes follows from it:
`stepped` says that a cycle which carries nothing out at most moves behind an opcode, and that any
other leaves what `Carried` allows its instruction to leave.

To compare cycles of two machines it is enough to compare their executions of one instruction:
`cycle_alike` goes through the four ways once for all such comparisons.
-/

namespace Chip8.Machine

/-- The result of a cycle and the machine after it. -/
inductive Cycled (machine : Machine) : Except Fault Progress → Machine → Prop where
  | unfetched {fault : Fault}
      (unfetched : machine.memory.opcodeAt machine.pc = .error fault) :
      Cycled machine (.error fault) machine
  | unknown {opcode : Opcode}
      (found : machine.memory.opcodeAt machine.pc = .ok opcode)
      (unknown : Instruction.ofOpcode? opcode = none) :
      Cycled machine (.error (.unknownOpcode opcode)) (machine.fetched opcode)
  | refused {opcode : Opcode} {instruction : Instruction} {fault : Fault}
      (found : machine.memory.opcodeAt machine.pc = .ok opcode)
      (known : Instruction.ofOpcode? opcode = some instruction)
      (refused : (machine.fetched opcode).execute instruction = .error fault) :
      Cycled machine (.error fault) (machine.fetched opcode)
  | carried {opcode : Opcode} {instruction : Instruction} {progress : Progress} {after : Machine}
      (found : machine.memory.opcodeAt machine.pc = .ok opcode)
      (known : Instruction.ofOpcode? opcode = some instruction)
      (met : (machine.fetched opcode).execute instruction = .ok (progress, after)) :
      Cycled machine (.ok progress) after

theorem cycled (machine : Machine) : Cycled machine machine.cycle.result machine.cycle.machine := by
  cases found : machine.memory.opcodeAt machine.pc with
  | error fault =>
      rw [cycle_of_unfetched found]
      exact .unfetched found
  | ok opcode =>
      cases known : Instruction.ofOpcode? opcode with
      | none =>
          rw [cycle_of_unknown found known]
          exact .unknown found known
      | some instruction =>
          cases met : (machine.fetched opcode).execute instruction with
          | error fault =>
              rw [cycle_of_refused found known met]
              exact .refused found known met
          | ok outcome =>
              rw [cycle_of_executed found known met]
              exact .carried found known met

/-- The instruction that the next cycle carries out, if it is going to succeed. -/
def succeeds? (machine : Machine) : Option Instruction :=
  match machine.cycle.result, machine.memory.opcodeAt machine.pc with
  | .ok _, .ok opcode => Instruction.ofOpcode? opcode
  | _, _ => none

/-- The machine after a cycle, given the instruction that the cycle carries out. -/
inductive Stepped (machine : Machine) : Option Instruction → Machine → Prop where
  | unfetched : Stepped machine none machine
  | failed (opcode : Opcode) : Stepped machine none (machine.fetched opcode)
  | carried {opcode : Opcode} {instruction : Instruction} {progress : Progress} {after : Machine}
      (carried : Carried (machine.fetched opcode) instruction progress after) :
      Stepped machine (some instruction) after

section Succeeding

variable {machine after : Machine} {opcode : Opcode} {instruction : Instruction}
variable {progress : Progress} {fault : Fault}

theorem succeeds?_of_met (found : machine.memory.opcodeAt machine.pc = .ok opcode)
    (known : Instruction.ofOpcode? opcode = some instruction)
    (met : (machine.fetched opcode).execute instruction = .ok (progress, after)) :
    machine.succeeds? = some instruction := by
  simp only [succeeds?, cycle_of_executed found known met, found, known]

theorem succeeds?_of_error (failed : machine.cycle.result = .error fault) :
    machine.succeeds? = none := by
  simp only [succeeds?, failed]

theorem result_of_succeeds (succeeds : machine.succeeds? = some instruction) :
    ∃ progress, machine.cycle.result = .ok progress := by
  cases result : machine.cycle.result with
  | error fault =>
      rw [succeeds?_of_error result] at succeeds
      cases succeeds
  | ok progress => exact ⟨progress, rfl⟩

end Succeeding

/-- A cycle changes what the instruction that it carries out can change, if there is one. -/
theorem stepped (machine : Machine) :
    Stepped machine machine.succeeds? machine.cycle.machine := by
  have way := machine.cycled
  cases result : machine.cycle.result with
  | error fault =>
      rw [succeeds?_of_error result]
      rw [result] at way
      generalize machine.cycle.machine = after at way ⊢
      cases way with
      | unfetched => exact .unfetched
      | unknown | refused => exact .failed _
  | ok progress =>
      rw [result] at way
      generalize machine.cycle.machine = after at way ⊢
      cases way with
      | carried found known met =>
          rw [succeeds?_of_met found known met]
          exact .carried (carried_of_execute met)

section Words

variable {machine after : Machine} {progress : Progress} (instruction : Instruction)

/-- A cycle on a word that is written for an instruction comes to what the instruction comes to, if it
is carried out. -/
theorem cycle_of_written {word : Opcode} (there : machine.memory.WordAt machine.pc.toNat word)
    (written : instruction.WrittenAs word)
    (met : (machine.fetched word).execute instruction = .ok (progress, after)) :
    machine.cycle.result = .ok progress ∧ machine.cycle.machine = after := by
  have found := Memory.opcodeAt_eq_ok_iff_wordAt.mpr there
  rw [cycle_of_executed found (Instruction.ofOpcode?_of_writtenAs written) met]
  exact ⟨rfl, rfl⟩

theorem cycle_of_word (there : machine.memory.WordAt machine.pc.toNat instruction.opcode)
    (met : (machine.fetched instruction.opcode).execute instruction = .ok (progress, after)) :
    machine.cycle.result = .ok progress ∧ machine.cycle.machine = after :=
  cycle_of_written instruction there
    (Instruction.ofOpcode?_eq_some_iff.mp (Instruction.ofOpcode?_opcode instruction)) met

/-- A cycle that goes well on the word of an instruction carries this instruction out. -/
theorem execute_of_word (there : machine.memory.WordAt machine.pc.toNat instruction.opcode)
    (result : machine.cycle.result = .ok progress) :
    (machine.fetched instruction.opcode).execute instruction =
      .ok (progress, machine.cycle.machine) := by
  have way := machine.cycled
  rw [result] at way
  generalize machine.cycle.machine = after at way ⊢
  cases way with
  | carried found known met =>
      cases (Memory.opcodeAt_eq_ok_iff_wordAt.mp found).eq there
      cases Instruction.eq_of_opcode known rfl
      exact met

end Words

/-! ## Two machines -/

/-- Two executions come to the same: both are refused with the same fault, or both make the same
progress and leave machines that are related. -/
inductive Alike (related : Machine → Machine → Prop) :
    Except Fault (Progress × Machine) → Except Fault (Progress × Machine) → Prop where
  | refused {fault : Fault} : Alike related (.error fault) (.error fault)
  | carried {progress : Progress} {left right : Machine} (after : related left right) :
      Alike related (.ok (progress, left)) (.ok (progress, right))

theorem alike_of_map {change : Machine → Machine} {first second : Except Fault (Progress × Machine)}
    (same : second = first.map fun outcome => (outcome.1, change outcome.2)) :
    Alike (fun left right => right = change left) first second := by
  subst same
  cases first with
  | error fault => exact .refused
  | ok outcome => exact .carried rfl

/-- Cycles of related machines that fetch the same come to the same, if moving behind the opcode and
executing its instruction keep the machines related. -/
theorem cycle_alike {related : Machine → Machine → Prop} {left right : Machine}
    (start : related left right)
    (same : right.memory.opcodeAt right.pc = left.memory.opcodeAt left.pc)
    (moves : ∀ opcode, related (left.fetched opcode) (right.fetched opcode))
    (executes : ∀ opcode instruction, left.memory.opcodeAt left.pc = .ok opcode →
      Instruction.ofOpcode? opcode = some instruction →
        Alike related ((left.fetched opcode).execute instruction)
          ((right.fetched opcode).execute instruction)) :
    right.cycle.result = left.cycle.result ∧ related left.cycle.machine right.cycle.machine := by
  cases found : left.memory.opcodeAt left.pc with
  | error fault =>
      rw [cycle_of_unfetched found, cycle_of_unfetched (same.trans found)]
      exact ⟨rfl, start⟩
  | ok opcode =>
      cases known : Instruction.ofOpcode? opcode with
      | none =>
          rw [cycle_of_unknown found known, cycle_of_unknown (same.trans found) known]
          exact ⟨rfl, moves opcode⟩
      | some instruction =>
          have alike := executes opcode instruction found known
          generalize met : (left.fetched opcode).execute instruction = first,
            also : (right.fetched opcode).execute instruction = second at alike
          cases alike with
          | refused =>
              rw [cycle_of_refused found known met, cycle_of_refused (same.trans found) known also]
              exact ⟨rfl, moves opcode⟩
          | carried after =>
              rw [cycle_of_executed found known met,
                cycle_of_executed (same.trans found) known also]
              exact ⟨rfl, after⟩

variable {machine : Machine} {opcode : Opcode}

/-- An opcode that is fetched ends inside memory, so moving behind it does not wrap around. -/
theorem toNat_pc_fetched (found : machine.memory.opcodeAt machine.pc = .ok opcode) :
    (machine.fetched opcode).pc.toNat = machine.pc.toNat + 2 ∧
      machine.pc.toNat + 2 ≤ Memory.size := by
  rcases Memory.opcodeAt_eq_ok_iff.mp found with ⟨high, low, _, lowAt, _⟩
  have inside := Memory.lt_size_of_byte? lowAt
  simp only [Memory.size] at inside ⊢
  simp only [fetched, UInt16.toNat_add, UInt16.reduceToNat]
  omega

end Chip8.Machine
