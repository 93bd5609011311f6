import Mathlib.Control.Monad.Basic
import Chip8.Proofs.Machine.Cycles
import Chip8.Proofs.Machine.Transfers
import Chip8.Proofs.Runs.Acts

/-!
# What a cycle writes into the registers

The word that a cycle fetches says which registers the cycle may change: the first register of the
word, if it has a result, those up to its first register, if it fetches registers from memory, and the
flag register, if it sets the flag. `Opcode.MayChange` puts this in terms of the digits of the word, and
`Opcode.PointsIndex` does the same for the index register. A cycle that fails or waits changes no
register at all.

`mayChange_of_execute` and `pointsIndex_of_execute` prove it of a single instruction, from the few
shapes that a change of the registers has.
-/

namespace Chip8

namespace Opcode

/-- Words that put a result into their first register: `6xkk`, `7xkk`, `8xy_`, `Cxkk`, `Fx07` and
`Fx0A`. -/
def HasResult (word : Opcode) : Prop :=
  word.family ∈ [0x6, 0x7, 0x8, 0xC] ∨ word.family = 0xF ∧ word.kk ∈ [0x07, 0x0A]

/-- Words that fetch the registers up to their first one: `Fx65`. -/
def FetchesRegisters (word : Opcode) : Prop :=
  word.family = 0xF ∧ word.kk = 0x65

/-- Words that set the flag: `8xy4` to `8xy7`, `8xyE`, `Dxyn` and, where the configuration asks for
it, `Fx1E`. -/
def SetsFlag (flagsIndex : Bool) (word : Opcode) : Prop :=
  word.family = 0x8 ∧ word.n.val ∈ [0x4, 0x5, 0x6, 0x7, 0xE] ∨ word.family = 0xD ∨
    word.family = 0xF ∧ word.kk = 0x1E ∧ flagsIndex = true

/-- Words that point the index register somewhere: `Annn`, `Fx1E` and `Fx29`. -/
def PointsIndex (word : Opcode) : Prop :=
  word.family = 0xA ∨ word.family = 0xF ∧ word.kk ∈ [0x1E, 0x29]

/-- A general register that a cycle on the word may change. -/
def MayChange (flagsIndex : Bool) (word : Opcode) (register : Register) : Prop :=
  word.HasResult ∧ register = word.x ∨ word.FetchesRegisters ∧ register ≤ word.x ∨
    word.SetsFlag flagsIndex ∧ register = .flag

section Written

variable {instruction : Instruction} {word : Opcode} {x : Register}

theorem hasResult_of_target (written : instruction.WrittenAs word)
    (target : instruction.target? = some x) : word.HasResult ∧ x = word.x := by
  cases instruction with
  | loadByte | addByte | load | or | and | xor | loadDelayTimer | waitForKey =>
      cases target
      cases written
      simp [HasResult, Instruction.opcode]
  | _ => cases target

theorem setsFlag_of_flaggedTarget (written : instruction.WrittenAs word)
    (target : instruction.flaggedTarget? = some x) (flagsIndex : Bool) :
    (word.HasResult ∧ x = word.x) ∧ word.SetsFlag flagsIndex := by
  cases instruction with
  | add | sub | subReversed =>
      cases target
      cases written
      simp [HasResult, SetsFlag, Instruction.opcode]
  | shiftRight | shiftLeft =>
      cases target
      rcases written with ⟨y, rfl⟩
      simp [HasResult, SetsFlag]
  | _ => cases target

theorem pointsIndex_of_written (written : instruction.WrittenAs word)
    (points : instruction.pointsIndex = true) : word.PointsIndex := by
  cases instruction with
  | setIndex | setIndexToGlyph =>
      cases written
      simp [PointsIndex, Instruction.opcode]
  | _ => cases points

end Written

section Silent

variable {word : Opcode} {flagsIndex : Bool}

theorem not_pointsIndex
    (still : word.family = 0xD ∨ word.family = 0xF ∧ word.kk ∈ [0x33, 0x55, 0x65]) :
    ¬ word.PointsIndex := by
  rintro (address | ⟨last, points⟩)
  · omega
  · rcases still with draw | ⟨_, other⟩
    · omega
    · simp only [List.mem_cons, List.not_mem_nil, or_false] at points other
      rcases points with points | points <;> simp [points] at other

theorem not_setsFlag
    (silent : word.family = 0x7 ∨ word.family = 0x8 ∧ word.n.val ∈ [0x1, 0x2, 0x3]) :
    ¬ word.SetsFlag flagsIndex := by
  simp only [SetsFlag, List.mem_cons, List.not_mem_nil, or_false] at silent ⊢
  omega

theorem not_mayChange_flag
    (silent : word.family = 0x7 ∨ word.family = 0x8 ∧ word.n.val ∈ [0x1, 0x2, 0x3])
    (apart : word.x ≠ Register.flag) : ¬ word.MayChange flagsIndex .flag := by
  rintro (⟨_, first⟩ | ⟨⟨family, _⟩, _⟩ | ⟨sets, _⟩)
  · exact apart first.symm
  · omega
  · exact not_setsFlag silent sets

end Silent

end Opcode

namespace Machine

variable {machine after : Machine} {instruction : Instruction} {word : Opcode}
variable {register : Register} {registers : Registers} {progress : Progress}

/-! ## One instruction -/

theorem mayChange_of_transferred (written : instruction.WrittenAs word)
    (transferred : Transferred machine instruction registers)
    (changed : registers.get register ≠ machine.v register) :
    word.MayChange machine.config.flagsIndexOverflow register := by
  cases transferred with
  | result target =>
      rcases Opcode.hasResult_of_target written target with ⟨puts, rfl⟩
      simp only [v, Registers.get_set, ite_ne_right_iff] at changed
      exact .inl ⟨puts, changed.1.symm⟩
  | flagged target =>
      rcases Opcode.setsFlag_of_flaggedTarget written target _ with ⟨⟨puts, rfl⟩, flags⟩
      -- A result in the flag register is overwritten, so there it is the flag that makes the change.
      by_cases flag : register = .flag
      · exact .inr (.inr ⟨flags, flag⟩)
      · simp only [v, Registers.setWithFlag, Registers.get_setFlag, Registers.get_set,
          if_neg (Ne.symm flag), ite_ne_right_iff] at changed
        exact .inl ⟨puts, changed.1.symm⟩
  | delay | sound | index | moved => exact absurd rfl changed
  | movedFlagged flags =>
      cases written
      rw [Registers.get_setFlag] at changed
      have flag := (ite_ne_right_iff.mp changed).1
      refine .inr (.inr ⟨?_, flag.symm⟩)
      simp [Opcode.SetsFlag, Instruction.opcode, flags]
  | @loaded x bytes whole =>
      cases written
      have covered : register ≤ x := by
        by_contra above
        have none : bytes[register.val]? = none := by
          rw [List.getElem?_eq_none_iff, whole]
          exact Nat.not_le.mp above
        rw [Registers.get_setFirst, none] at changed
        exact changed rfl
      refine .inr (.inl ⟨?_, ?_⟩)
      · simp [Opcode.FetchesRegisters, Instruction.opcode]
      · simpa [Instruction.opcode] using covered

/-- An instruction changes only registers that its word may change, and only if it does not wait. -/
theorem mayChange_of_execute (written : instruction.WrittenAs word)
    (met : machine.execute instruction = .ok (progress, after))
    (changed : after.v register ≠ machine.v register) :
    progress = .executed ∧ word.MayChange machine.config.flagsIndexOverflow register := by
  cases carried_of_execute met with
  | clear | back | call | flow | wait | store => exact absurd rfl changed
  | transfer about =>
      rcases transferred_of_execute about met with ⟨registers, left, transferred⟩
      rw [left] at changed
      exact ⟨rfl, mayChange_of_transferred written transferred changed⟩
  | random =>
      cases written
      simp only [v, setV, Registers.get_set, ite_ne_right_iff] at changed
      refine ⟨rfl, .inl ⟨?_, ?_⟩⟩
      · simp [Opcode.HasResult, Instruction.opcode]
      · simpa [Instruction.opcode] using changed.1.symm
  | draw =>
      cases written
      simp only [v, Registers.get_setFlag, ite_ne_right_iff] at changed
      refine ⟨rfl, .inr (.inr ⟨?_, changed.1.symm⟩)⟩
      simp [Opcode.SetsFlag, Instruction.opcode]

theorem pointsIndex_of_execute (written : instruction.WrittenAs word)
    (met : machine.execute instruction = .ok (progress, after))
    (moved : after.registers.index ≠ machine.registers.index) :
    progress = .executed ∧ word.PointsIndex := by
  cases carried_of_execute met with
  | transfer about =>
      rcases transferred_of_execute about met with ⟨registers, left, transferred⟩
      rw [left] at moved
      refine ⟨rfl, ?_⟩
      cases transferred with
      | index points => exact Opcode.pointsIndex_of_written written points
      | moved | movedFlagged =>
          cases written
          simp [Opcode.PointsIndex, Instruction.opcode]
      | _ => exact absurd rfl moved
  | _ => exact absurd rfl moved

/-! ## A cycle -/

/-- A cycle that changes anything in the registers carries an instruction out. -/
theorem execute_of_registers_ne (changed : machine.cycle.machine.registers ≠ machine.registers) :
    ∃ word instruction progress, machine.memory.WordAt machine.pc.toNat word ∧
      instruction.WrittenAs word ∧ machine.cycle.result = .ok progress ∧
      (machine.fetched word).execute instruction = .ok (progress, machine.cycle.machine) := by
  have way := machine.cycled
  generalize machine.cycle.result = result, machine.cycle.machine = after at changed way ⊢
  cases way with
  | unfetched | unknown | refused => exact absurd rfl changed
  | carried found known met =>
      exact ⟨_, _, _, Memory.opcodeAt_eq_ok_iff_wordAt.mp found,
        Instruction.ofOpcode?_eq_some_iff.mp known, rfl, met⟩

theorem mayChange_of_cycle (changed : machine.cycle.machine.v register ≠ machine.v register) :
    machine.cycle.result = .ok .executed ∧
      ∃ word, machine.memory.WordAt machine.pc.toNat word ∧
        word.MayChange machine.config.flagsIndexOverflow register := by
  have registers : machine.cycle.machine.registers ≠ machine.registers := by
    intro same
    exact changed (congrArg (·.get register) same)
  rcases execute_of_registers_ne registers with ⟨word, _, _, there, written, result, met⟩
  rcases mayChange_of_execute written met changed with ⟨rfl, may⟩
  exact ⟨result, word, there, may⟩

theorem pointsIndex_of_cycle
    (moved : machine.cycle.machine.registers.index ≠ machine.registers.index) :
    machine.cycle.result = .ok .executed ∧
      ∃ word, machine.memory.WordAt machine.pc.toNat word ∧ word.PointsIndex := by
  have registers : machine.cycle.machine.registers ≠ machine.registers := by
    intro same
    exact moved (congrArg Registers.index same)
  rcases execute_of_registers_ne registers with ⟨word, _, _, there, written, result, met⟩
  rcases pointsIndex_of_execute written met moved with ⟨rfl, points⟩
  exact ⟨result, word, there, points⟩

/-- A general register differs after a cycle only if the cycle carried its word out and the word may
change the register, and the index register only if the word points it somewhere. So no word that
draws, stores decimal digits or registers or fetches them moves the index register, and none that adds
a byte or combines bits touches the flag register, unless that is its first register. -/
theorem registers_change_by_word (machine : Machine) :
    (∀ register, machine.cycle.machine.v register ≠ machine.v register →
      machine.cycle.result = .ok .executed ∧
        ∃ word, machine.memory.WordAt machine.pc.toNat word ∧
          word.MayChange machine.config.flagsIndexOverflow register) ∧
    (machine.cycle.machine.registers.index ≠ machine.registers.index →
      machine.cycle.result = .ok .executed ∧
        ∃ word, machine.memory.WordAt machine.pc.toNat word ∧ word.PointsIndex) ∧
    ∀ word, machine.memory.WordAt machine.pc.toNat word →
      (word.family = 0xD ∨ word.family = 0xF ∧ word.kk ∈ [0x33, 0x55, 0x65] →
        machine.cycle.machine.registers.index = machine.registers.index) ∧
      (word.family = 0x7 ∨ word.family = 0x8 ∧ word.n.val ∈ [0x1, 0x2, 0x3] →
        word.x ≠ Register.flag → machine.cycle.machine.v .flag = machine.v .flag) := by
  refine ⟨fun _ => mayChange_of_cycle, pointsIndex_of_cycle, ?_⟩
  intro word there
  constructor
  · intro still
    by_contra moved
    rcases (pointsIndex_of_cycle moved).2 with ⟨_, also, points⟩
    cases there.eq also
    exact Opcode.not_pointsIndex still points
  · intro silent apart
    by_contra changed
    rcases (mayChange_of_cycle changed).2 with ⟨_, also, may⟩
    cases there.eq also
    exact Opcode.not_mayChange_flag silent apart may

set_option maxRecDepth 8000 in
theorem registers_change_by_word_of_collision :
    ∃ start : Machine, build .standard .zeroKeyed = .ok start ∧
      let program := [0xA2, 0x00, 0xD0, 0x01, 0xD0, 0x01, 0x80, 0x11]
      let first := start.afterAll [.load program 0x200]
      let machine := start.afterAll [.load program 0x200, .frame 2]
      let last := start.afterAll [.load program 0x200, .frame 3]
      (first.cycle.machine.registers.index ≠ first.registers.index ∧
        ∃ word, first.memory.WordAt first.pc.toNat word ∧ word.PointsIndex) ∧
      (machine.cycle.machine.v .flag ≠ machine.v .flag ∧
        ∃ word, machine.memory.WordAt machine.pc.toNat word ∧
          word.MayChange machine.config.flagsIndexOverflow .flag) ∧
      machine.cycle.machine.registers.index = 0x200 ∧
      last.v .flag = 1 ∧ last.cycle.machine.v .flag = 1 := by
  refine ⟨_, build_standard .zeroKeyed, ?_⟩
  intro program first machine last
  have seen : first.cycle.machine.registers.index ≠ first.registers.index ∧
      (machine.cycle.machine.v .flag ≠ machine.v .flag ∧ machine.registers.index = 0x200 ∧
        machine.memory.byte? machine.pc.toNat = some 0xD0 ∧
        machine.memory.byte? (machine.pc.toNat + 1) = some 0x01) ∧
      last.v .flag = 1 ∧ last.memory.byte? last.pc.toNat = some 0x80 ∧
        last.memory.byte? (last.pc.toNat + 1) = some 0x11 := by
    decide +kernel
  rcases seen with ⟨moved, ⟨changed, index, drawHigh, drawLow⟩, flag, orHigh, orLow⟩
  have draws : machine.memory.WordAt machine.pc.toNat 0xD001 :=
    ⟨0xD0, 0x01, drawHigh, drawLow, rfl⟩
  have combines : last.memory.WordAt last.pc.toNat 0x8011 := ⟨0x80, 0x11, orHigh, orLow, rfl⟩
  have points := (registers_change_by_word first).2.1 moved
  rcases registers_change_by_word machine with ⟨may, _, rest⟩
  have still := (rest _ draws).1 (by decide)
  have silent := ((registers_change_by_word last).2.2 _ combines).2 (by decide) (by decide)
  exact ⟨⟨moved, points.2⟩, ⟨changed, (may _ changed).2⟩, still.trans index, flag,
    silent.trans flag⟩

end Machine

end Chip8
