import Chip8.Machine.Execute

/-!
# What an instruction does

For each part of an instruction that can be refused: when it is met, what it then leaves, and when
it is refused with which fault. The main statement is `carried_of_execute`: whatever instruction is
carried out, the machine afterwards differs from the one before only in the parts that `Carried`
names for it. Facts about all instructions are read off its few cases.
-/

namespace Chip8

/-! ## Sequencing -/

section Sequencing

variable {α β : Type} {first : Except Fault α} {next : α → Except Fault β}

theorem bind_eq_ok_iff {value : β} :
    first >>= next = .ok value ↔ ∃ found, first = .ok found ∧ next found = .ok value := by
  cases first <;> simp [bind, Except.bind]

theorem bind_eq_error_iff {fault : Fault} :
    first >>= next = .error fault ↔
      first = .error fault ∨ ∃ found, first = .ok found ∧ next found = .error fault := by
  cases first <;> simp [bind, Except.bind]

theorem pure_eq_ok_iff {value found : α} :
    (pure value : Except Fault α) = .ok found ↔ found = value := by
  simp [pure, Except.pure, eq_comm]

theorem pure_ne_error {value : α} {fault : Fault} :
    (pure value : Except Fault α) ≠ .error fault := by
  simp [pure, Except.pure]

end Sequencing

namespace Machine

/-! ## Registers that are set -/

@[simp] theorem v_setV (machine : Machine) (register other : Register) (value : UInt8) :
    (machine.setV register value).v other = if register = other then value else machine.v other :=
  Registers.get_set _ _ _ _

@[simp] theorem v_setVWithFlag (machine : Machine) (register other : Register)
    (result : UInt8 × Bool) :
    (machine.setVWithFlag register result).v other =
      if .flag = other then result.2.toUInt8 else if register = other then result.1
      else machine.v other := by
  simp only [setVWithFlag, v, Registers.setWithFlag, Registers.get_setFlag, Registers.get_set]

variable {machine after : Machine} {fault : Fault} {progress : Progress}

/-! ## Parts that can be refused -/

theorem executed_ne_error : machine.executed ≠ .error fault := by
  simp [executed]

theorem keyIn_eq_ok_iff {x : Register} {pressed : Bool} :
    machine.keyIn x = .ok pressed ↔
      ∃ key : Key, (machine.v x).toNat = key.val ∧ pressed = machine.keypad.isPressed key := by
  simp only [keyIn, bind_eq_ok_iff, pure_eq_ok_iff, Key.ofByte_eq_ok_iff]

theorem keyIn_eq_error_iff {x : Register} :
    machine.keyIn x = .error fault ↔
      16 ≤ (machine.v x).toNat ∧ fault = .invalidKey (machine.v x) := by
  simp only [keyIn, bind_eq_error_iff, pure_ne_error, Key.ofByte_eq_error_iff, and_false,
    exists_false, or_false]

theorem drawSprite_eq_ok_iff {x y : Register} {n : Digit} :
    machine.drawSprite x y n = .ok after ↔
      Memory.Fits machine.registers.index n.val ∧
        let drawn := machine.screen.draw (machine.v x) (machine.v y)
          (machine.memory.read machine.registers.index.toNat n.val)
        after = { machine with
          screen := drawn.screen
          registers := machine.registers.setFlag drawn.collision
          redraw := true } := by
  simp only [drawSprite, bind_eq_ok_iff, pure_eq_ok_iff, Memory.slice_eq_ok_iff]
  constructor
  · intro found
    rcases found with ⟨_, ⟨fits, rfl⟩, rfl⟩
    exact ⟨fits, rfl⟩
  · intro inside
    rcases inside with ⟨fits, rfl⟩
    exact ⟨_, ⟨fits, rfl⟩, rfl⟩

theorem drawSprite_eq_error_iff {x y : Register} {n : Digit} :
    machine.drawSprite x y n = .error fault ↔
      ¬ Memory.Fits machine.registers.index n.val ∧
        fault = Memory.rangeFault machine.registers.index n.val := by
  simp only [drawSprite, bind_eq_error_iff, pure_ne_error, Memory.slice_eq_error_iff, and_false,
    exists_false, or_false]

theorem storeAtIndex_eq_ok_iff {bytes : List UInt8} :
    machine.storeAtIndex bytes = .ok after ↔
      Memory.Fits machine.registers.index bytes.length ∧
        after = { machine with
          memory := machine.memory.write machine.registers.index.toNat bytes } := by
  simp only [storeAtIndex, bind_eq_ok_iff, pure_eq_ok_iff, Memory.load_eq_ok_iff]
  constructor
  · intro found
    rcases found with ⟨_, ⟨fits, rfl⟩, rfl⟩
    exact ⟨fits, rfl⟩
  · intro inside
    rcases inside with ⟨fits, rfl⟩
    exact ⟨_, ⟨fits, rfl⟩, rfl⟩

theorem storeAtIndex_eq_error_iff {bytes : List UInt8} :
    machine.storeAtIndex bytes = .error fault ↔
      ¬ Memory.Fits machine.registers.index bytes.length ∧
        fault = Memory.rangeFault machine.registers.index bytes.length := by
  simp only [storeAtIndex, bind_eq_error_iff, pure_ne_error, Memory.load_eq_error_iff, and_false,
    exists_false, or_false]

theorem fetchRegisters_eq_ok_iff {last : Register} :
    machine.fetchRegisters last = .ok after ↔
      Memory.Fits machine.registers.index (last.val + 1) ∧
        after = { machine with
          registers := machine.registers.setFirst
            (machine.memory.read machine.registers.index.toNat (last.val + 1)) } := by
  simp only [fetchRegisters, bind_eq_ok_iff, pure_eq_ok_iff, Memory.slice_eq_ok_iff]
  constructor
  · intro found
    rcases found with ⟨_, ⟨fits, rfl⟩, rfl⟩
    exact ⟨fits, rfl⟩
  · intro inside
    rcases inside with ⟨fits, rfl⟩
    exact ⟨_, ⟨fits, rfl⟩, rfl⟩

theorem fetchRegisters_eq_error_iff {last : Register} :
    machine.fetchRegisters last = .error fault ↔
      ¬ Memory.Fits machine.registers.index (last.val + 1) ∧
        fault = Memory.rangeFault machine.registers.index (last.val + 1) := by
  simp only [fetchRegisters, bind_eq_error_iff, pure_ne_error, Memory.slice_eq_error_iff,
    and_false, exists_false, or_false]

end Machine

/-! ## What is changed -/

namespace Instruction

/-- Instructions that do nothing but choose where to go on. -/
def isFlow : Instruction → Bool
  | jump .. | jumpPlusV0 .. | skipIfEqualByte .. | skipIfNotEqualByte .. | skipIfEqual ..
  | skipIfNotEqual .. | skipIfPressed .. | skipIfNotPressed .. => true
  | _ => false

/-- Instructions whose whole effect is on the registers and the timers. -/
def isTransfer : Instruction → Bool
  | loadByte .. | addByte .. | load .. | or .. | and .. | xor .. | add .. | sub .. | shiftRight ..
  | subReversed .. | shiftLeft .. | setIndex .. | loadDelayTimer .. | waitForKey ..
  | setDelayTimer .. | setSoundTimer .. | addToIndex .. | setIndexToGlyph ..
  | loadRegisters .. => true
  | _ => false

end Instruction

namespace Machine

/-- Where an instruction that only chooses can go on, given the address behind it. -/
inductive GoesOn (pc : UInt16) : UInt16 → Prop where
  | next : GoesOn pc pc
  | skip : GoesOn pc (pc + 2)
  | jump (nnn : Address) : GoesOn pc nnn.toWord
  | jumpPlus (nnn : Address) (offset : UInt8) : GoesOn pc (nnn.toWord + offset.toUInt16)

/-- The bytes that an instruction puts into memory. -/
def stored? (machine : Machine) : Instruction → Option (List UInt8)
  | .storeBcd x => some (Arithmetic.decimalDigits (machine.v x))
  | .storeRegisters x => some (machine.registers.upTo x)
  | _ => none

/-- What an instruction that is carried out changes; all else is as it was before. -/
inductive Carried (before : Machine) : Instruction → Progress → Machine → Prop where
  | clear : Carried before .clearScreen .executed { before with screen := .blank, redraw := true }
  | back {pc : UInt16} {stack : CallStack} (opened : before.stack = stack.cons pc) :
      Carried before .returnFromSubroutine .executed { before with pc, stack }
  | call {nnn : Address} (room : before.stack.depth < before.config.stackDepth) :
      Carried before (.call nnn) .executed
        { before with pc := nnn.toWord, stack := before.stack.cons before.pc }
  | flow {instruction : Instruction} {pc : UInt16} (about : instruction.isFlow = true)
      (goes : GoesOn before.pc pc) : Carried before instruction .executed { before with pc }
  | transfer {instruction : Instruction} {registers : Registers}
      (about : instruction.isTransfer = true) :
      Carried before instruction .executed { before with registers }
  | wait {x : Register} (released : before.keypad.lowest? = none) :
      Carried before (.waitForKey x) (.waitingForKey x) { before with pc := before.pc - 2 }
  | random {x : Register} {kk : UInt8} :
      Carried before (.random x kk) .executed
        { before.setV x (before.random.byte &&& kk) with random := before.random.advance }
  | draw {x y : Register} {n : Digit} {drawn : Screen.Drawing}
      (inside : Memory.Fits before.registers.index n.val)
      (shown : drawn = before.screen.draw (before.v x) (before.v y)
        (before.memory.read before.registers.index.toNat n.val)) :
      Carried before (.draw x y n) .executed
        { before with
          screen := drawn.screen
          registers := before.registers.setFlag drawn.collision
          redraw := true }
  | store {instruction : Instruction} {bytes : List UInt8}
      (found : before.stored? instruction = some bytes)
      (inside : Memory.Fits before.registers.index bytes.length) :
      Carried before instruction .executed
        { before with memory := before.memory.write before.registers.index.toNat bytes }

variable {machine after : Machine} {instruction : Instruction} {progress : Progress}

theorem goesOn_skipIf (pc : UInt16) (condition : Bool) :
    GoesOn pc (if condition then pc + 2 else pc) := by
  cases condition
  · exact .next
  · exact .skip

/-- An instruction that is carried out changes only what `Carried` names for it. -/
theorem carried_of_execute (met : machine.execute instruction = .ok (progress, after)) :
    Carried machine instruction progress after := by
  cases instruction with
  | clearScreen =>
      cases met
      exact .clear
  | returnFromSubroutine =>
      rcases bind_eq_ok_iff.mp met with ⟨⟨pc, stack⟩, popped, met⟩
      cases met
      exact .back (CallStack.pop_eq_ok_iff.mp popped)
  | call nnn =>
      rcases bind_eq_ok_iff.mp met with ⟨stack, pushed, met⟩
      rcases CallStack.push_eq_ok_iff.mp pushed with ⟨room, rfl⟩
      cases met
      exact .call room
  | jump nnn =>
      cases met
      exact .flow rfl (.jump nnn)
  | jumpPlusV0 nnn =>
      cases met
      exact .flow rfl (.jumpPlus nnn _)
  | skipIfEqualByte | skipIfNotEqualByte | skipIfEqual | skipIfNotEqual =>
      cases met
      exact .flow rfl (goesOn_skipIf _ _)
  | skipIfPressed x | skipIfNotPressed x =>
      rcases bind_eq_ok_iff.mp met with ⟨pressed, _, met⟩
      cases met
      exact .flow rfl (goesOn_skipIf _ _)
  | random x kk =>
      cases met
      exact .random
  | draw x y n =>
      rcases bind_eq_ok_iff.mp met with ⟨drawn, found, met⟩
      rcases drawSprite_eq_ok_iff.mp found with ⟨inside, rfl⟩
      cases met
      exact .draw inside rfl
  | waitForKey x =>
      simp only [execute, awaitKey] at met
      split at met
      next => cases met; exact .transfer rfl
      next released => cases met; exact .wait released
  | storeBcd x | storeRegisters x =>
      rcases bind_eq_ok_iff.mp met with ⟨stored, found, met⟩
      rcases storeAtIndex_eq_ok_iff.mp found with ⟨inside, rfl⟩
      cases met
      exact .store rfl inside
  | loadRegisters x =>
      rcases bind_eq_ok_iff.mp met with ⟨loaded, found, met⟩
      rcases fetchRegisters_eq_ok_iff.mp found with ⟨_, rfl⟩
      cases met
      exact .transfer rfl
  | _ =>
      cases met
      exact .transfer rfl

end Machine

end Chip8
