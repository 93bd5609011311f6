import Chip8.Proofs.Machine.Execution

/-!
# What transfers leave in the registers

Most instructions do nothing but move values between the registers, the index register and the timers.
`Transferred` lists the few shapes that this takes, with the registers that each of them leaves, and
`transferred_of_execute` says that every transfer has one of them. What a transfer leaves alone is
read off these shapes.
-/

namespace Chip8

namespace Instruction

/-- The register that a transfer puts its result into, if it leaves the flag alone. -/
def target? : Instruction → Option Register
  | loadByte x _ | addByte x _ | load x _ | or x _ | and x _ | xor x _ | loadDelayTimer x
  | waitForKey x => some x
  | _ => none

/-- The register that a transfer puts its result into before it sets the flag. -/
def flaggedTarget? : Instruction → Option Register
  | add x _ | sub x _ | shiftRight x | subReversed x _ | shiftLeft x => some x
  | _ => none

/-- Transfers whose whole effect is to point the index register somewhere. -/
def pointsIndex : Instruction → Bool
  | setIndex _ | setIndexToGlyph _ => true
  | _ => false

end Instruction

namespace Machine

/-- The registers that a transfer leaves. -/
inductive Transferred (before : Machine) : Instruction → Registers → Prop where
  | result {instruction : Instruction} {x : Register} {value : UInt8}
      (target : instruction.target? = some x) :
      Transferred before instruction (before.registers.set x value)
  | flagged {instruction : Instruction} {x : Register} {result : UInt8 × Bool}
      (target : instruction.flaggedTarget? = some x) :
      Transferred before instruction (before.registers.setWithFlag x result)
  | delay {x : Register} :
      Transferred before (.setDelayTimer x) { before.registers with delay := before.v x }
  | sound {x : Register} :
      Transferred before (.setSoundTimer x) { before.registers with sound := before.v x }
  | index {instruction : Instruction} {index : UInt16} (points : instruction.pointsIndex = true) :
      Transferred before instruction { before.registers with index }
  | moved {x : Register} {index : UInt16} (silent : before.config.flagsIndexOverflow = false) :
      Transferred before (.addToIndex x) { before.registers with index }
  | movedFlagged {x : Register} {index : UInt16} {past : Bool}
      (flags : before.config.flagsIndexOverflow = true) :
      Transferred before (.addToIndex x) ({ before.registers with index }.setFlag past)
  | loaded {x : Register} {bytes : List UInt8} (whole : bytes.length = x.val + 1) :
      Transferred before (.loadRegisters x) (before.registers.setFirst bytes)

variable {machine after : Machine} {instruction : Instruction} {progress : Progress}

/-- A transfer that is carried out changes nothing but the registers, in the way that `Transferred`
names for it. -/
theorem transferred_of_execute (about : instruction.isTransfer = true)
    (met : machine.execute instruction = .ok (.executed, after)) :
    ∃ registers, after = { machine with registers } ∧
      Transferred machine instruction registers := by
  cases instruction with
  | loadByte | addByte | load | or | and | xor | loadDelayTimer =>
      cases met
      exact ⟨_, rfl, .result rfl⟩
  | add | sub | shiftRight | subReversed | shiftLeft =>
      cases met
      exact ⟨_, rfl, .flagged rfl⟩
  | setDelayTimer =>
      cases met
      exact ⟨_, rfl, .delay⟩
  | setSoundTimer =>
      cases met
      exact ⟨_, rfl, .sound⟩
  | setIndex | setIndexToGlyph =>
      cases met
      exact ⟨_, rfl, .index rfl⟩
  | addToIndex x =>
      cases met
      refine ⟨_, rfl, ?_⟩
      cases flags : machine.config.flagsIndexOverflow with
      | true => exact .movedFlagged flags
      | false => exact .moved flags
  | waitForKey x =>
      simp only [execute, awaitKey] at met
      split at met
      next =>
        cases met
        exact ⟨_, rfl, .result rfl⟩
      next => cases met
  | loadRegisters x =>
      rcases bind_eq_ok_iff.mp met with ⟨loaded, found, met⟩
      rcases fetchRegisters_eq_ok_iff.mp found with ⟨_, rfl⟩
      cases met
      exact ⟨_, rfl, .loaded (Memory.length_read _ _ _)⟩
  | _ => cases about

end Machine

end Chip8
