import Chip8.Instruction.Code
import Chip8.Machine.Execute

/-!
# Cycles

A cycle fetches the opcode at the program counter, moves behind it, reads it as an instruction and
executes that. Cycles leave the timers alone.

A cycle that cannot fetch changes nothing. One that fails later has moved behind the opcode and
remembers it, and has changed nothing else, so a host that goes on goes on behind the instruction
that was refused.
-/

namespace Chip8.Machine

/-- The machine that has fetched an opcode and moved behind it. -/
def fetched (machine : Machine) (opcode : Opcode) : Machine :=
  { machine with opcode, pc := machine.pc + 2 }

/-- The event of an instruction that opens or closes a call, given the machines around it. -/
def callEvents (instruction : Instruction) (before after : Machine) : List Event :=
  match instruction with
  | .call nnn => [.called nnn before.pc]
  | .returnFromSubroutine => [.returned after.pc]
  | _ => []

/-- The event at the end of a cycle that went well. -/
def cycledEvent (machine : Machine) : Event :=
  .cycled machine.registers machine.pc machine.stack.depth

/-- Execute an instruction that was read from the opcode at `address`, behind which the machine has
moved, and report what came of it. -/
def carryOut (machine : Machine) (address : UInt16) (opcode : Opcode) (instruction : Instruction) :
    Reply Progress :=
  match machine.execute instruction with
  | .ok (progress, after) =>
      ⟨.ok progress, after,
        .decoded address opcode instruction ::
          (callEvents instruction machine after ++ [after.cycledEvent])⟩
  | .error fault =>
      ⟨.error fault, machine,
        [.decoded address opcode instruction, .refused instruction fault]⟩

/-- Read the opcode at `address`, behind which the machine has moved, and carry it out. -/
def interpret (machine : Machine) (address : UInt16) (opcode : Opcode) : Reply Progress :=
  match Instruction.ofOpcode? opcode with
  | some instruction => machine.carryOut address opcode instruction
  | none =>
      ⟨.error (.unknownOpcode opcode), machine, [.undecodable address (.unknownOpcode opcode)]⟩

/-- Run one cycle. -/
def cycle (machine : Machine) : Reply Progress :=
  match machine.memory.opcodeAt machine.pc with
  | .ok opcode => (machine.fetched opcode).interpret machine.pc opcode
  | .error fault => .refused machine fault

/-! ## The four ways of a cycle -/

section Ways

variable {machine after : Machine} {opcode : Opcode} {instruction : Instruction}
variable {fault : Fault} {progress : Progress}

/-- A cycle that cannot fetch changes nothing and reports nothing. -/
theorem cycle_of_unfetched (unfetched : machine.memory.opcodeAt machine.pc = .error fault) :
    machine.cycle = .refused machine fault := by
  simp only [cycle, unfetched]

theorem cycle_of_unknown (found : machine.memory.opcodeAt machine.pc = .ok opcode)
    (unknown : Instruction.ofOpcode? opcode = none) :
    machine.cycle = ⟨.error (.unknownOpcode opcode), machine.fetched opcode,
      [.undecodable machine.pc (.unknownOpcode opcode)]⟩ := by
  simp only [cycle, found, interpret, unknown]

/-- A cycle whose instruction is refused has moved behind the opcode. -/
theorem cycle_of_refused (found : machine.memory.opcodeAt machine.pc = .ok opcode)
    (known : Instruction.ofOpcode? opcode = some instruction)
    (refused : (machine.fetched opcode).execute instruction = .error fault) :
    machine.cycle = ⟨.error fault, machine.fetched opcode,
      [.decoded machine.pc opcode instruction, .refused instruction fault]⟩ := by
  simp only [cycle, found, interpret, known, carryOut, refused]

theorem cycle_of_executed (found : machine.memory.opcodeAt machine.pc = .ok opcode)
    (known : Instruction.ofOpcode? opcode = some instruction)
    (met : (machine.fetched opcode).execute instruction = .ok (progress, after)) :
    machine.cycle = ⟨.ok progress, after,
      .decoded machine.pc opcode instruction ::
        (callEvents instruction (machine.fetched opcode) after ++ [after.cycledEvent])⟩ := by
  simp only [cycle, found, interpret, known, carryOut, met]

end Ways

end Chip8.Machine
