import Mathlib.Control.Monad.Basic
import Chip8.Proofs.Instruction.Reading
import Chip8.Proofs.Memory.Words
import Chip8.Proofs.Safety.Invariant

/-!
# When a cycle fails

The conditions under which an instruction is refused, and those under which a cycle fails, each with
its fault. Both lists are complete: `execute_eq_error_iff` and `cycle_error_iff` say that nothing
else is ever refused and that no other fault is ever given.
-/

namespace Chip8

namespace Machine

variable {config : Config} {machine : Machine} {instruction : Instruction} {fault : Fault}

/-! ## Instructions -/

/-- The conditions under which an instruction is refused. -/
inductive Refuses (machine : Machine) : Instruction → Fault → Prop where
  | back (closed : machine.stack.returns = []) :
      Refuses machine .returnFromSubroutine .stackUnderflow
  | call {nnn : Address} (full : machine.config.stackDepth ≤ machine.stack.returns.length) :
      Refuses machine (.call nnn) (.stackOverflow machine.config.stackDepth)
  | draw {x y : Register} {n : Digit}
      (outside : Memory.size < machine.registers.index.toNat + n.val) :
      Refuses machine (.draw x y n) (.outOfBounds (machine.registers.index.toNat + (n.val - 1)))
  | storeBcd {x : Register} (outside : Memory.size < machine.registers.index.toNat + 3) :
      Refuses machine (.storeBcd x) (.outOfBounds (machine.registers.index.toNat + 2))
  | storeRegisters {x : Register}
      (outside : Memory.size < machine.registers.index.toNat + x.val + 1) :
      Refuses machine (.storeRegisters x) (.outOfBounds (machine.registers.index.toNat + x.val))
  | loadRegisters {x : Register}
      (outside : Memory.size < machine.registers.index.toNat + x.val + 1) :
      Refuses machine (.loadRegisters x) (.outOfBounds (machine.registers.index.toNat + x.val))
  | skipIfPressed {x : Register} (unknown : 0xF < (machine.v x).toNat) :
      Refuses machine (.skipIfPressed x) (.invalidKey (machine.v x))
  | skipIfNotPressed {x : Register} (unknown : 0xF < (machine.v x).toNat) :
      Refuses machine (.skipIfNotPressed x) (.invalidKey (machine.v x))

theorem bind_executed_eq_error_iff {α : Type} {part : Except Fault α} {rest : α → Machine} :
    (part >>= fun value => executed (rest value)) = .error fault ↔ part = .error fault := by
  rw [bind_eq_error_iff]
  constructor
  · intro refused
    rcases refused with failed | ⟨value, _, failed⟩
    · exact failed
    · exact absurd failed executed_ne_error
  · intro failed
    exact .inl failed

theorem refuses_of_execute (failed : machine.execute instruction = .error fault) :
    machine.Refuses instruction fault := by
  cases instruction with
  | returnFromSubroutine =>
      rcases CallStack.pop_eq_error_iff.mp (bind_executed_eq_error_iff.mp failed) with ⟨closed, rfl⟩
      exact .back (congrArg CallStack.returns closed)
  | call nnn =>
      rcases CallStack.push_eq_error_iff.mp (bind_executed_eq_error_iff.mp failed) with ⟨full, rfl⟩
      rw [machine.stack.depth_eq] at full
      exact .call full
  | draw x y n =>
      rcases drawSprite_eq_error_iff.mp (bind_executed_eq_error_iff.mp failed) with ⟨outside, rfl⟩
      exact .draw (Nat.lt_of_not_le outside)
  | storeBcd x =>
      rcases storeAtIndex_eq_error_iff.mp (bind_executed_eq_error_iff.mp failed) with ⟨outside, rfl⟩
      exact .storeBcd (Nat.lt_of_not_le outside)
  | storeRegisters x =>
      rcases storeAtIndex_eq_error_iff.mp (bind_executed_eq_error_iff.mp failed) with ⟨outside, rfl⟩
      rw [Registers.length_upTo] at outside ⊢
      exact .storeRegisters (Nat.lt_of_not_le outside)
  | loadRegisters x =>
      obtain ⟨outside, rfl⟩ := fetchRegisters_eq_error_iff.mp (bind_executed_eq_error_iff.mp failed)
      exact .loadRegisters (Nat.lt_of_not_le outside)
  | skipIfPressed x =>
      rcases keyIn_eq_error_iff.mp (bind_executed_eq_error_iff.mp failed) with ⟨unknown, rfl⟩
      exact .skipIfPressed unknown
  | skipIfNotPressed x =>
      rcases keyIn_eq_error_iff.mp (bind_executed_eq_error_iff.mp failed) with ⟨unknown, rfl⟩
      exact .skipIfNotPressed unknown
  | _ => cases failed

theorem execute_of_refuses (refuses : machine.Refuses instruction fault) :
    machine.execute instruction = .error fault := by
  cases refuses with
  | back closed =>
      apply bind_executed_eq_error_iff.mpr
      exact CallStack.pop_eq_error_iff.mpr ⟨CallStack.ext closed, rfl⟩
  | call full =>
      apply bind_executed_eq_error_iff.mpr
      rw [← machine.stack.depth_eq] at full
      exact CallStack.push_eq_error_iff.mpr ⟨full, rfl⟩
  | draw outside =>
      apply bind_executed_eq_error_iff.mpr
      exact drawSprite_eq_error_iff.mpr ⟨Nat.not_le_of_lt outside, rfl⟩
  | storeBcd outside =>
      apply bind_executed_eq_error_iff.mpr
      exact storeAtIndex_eq_error_iff.mpr ⟨Nat.not_le_of_lt outside, rfl⟩
  | @storeRegisters x outside =>
      apply bind_executed_eq_error_iff.mpr
      apply storeAtIndex_eq_error_iff.mpr
      rw [Registers.length_upTo]
      exact ⟨Nat.not_le_of_lt outside, rfl⟩
  | loadRegisters outside =>
      apply bind_executed_eq_error_iff.mpr
      exact fetchRegisters_eq_error_iff.mpr ⟨Nat.not_le_of_lt outside, rfl⟩
  | skipIfPressed unknown | skipIfNotPressed unknown =>
      apply bind_executed_eq_error_iff.mpr
      exact keyIn_eq_error_iff.mpr ⟨unknown, rfl⟩

/-- An instruction is refused exactly under the conditions listed for it. -/
theorem execute_eq_error_iff :
    machine.execute instruction = .error fault ↔ machine.Refuses instruction fault :=
  ⟨refuses_of_execute, execute_of_refuses⟩

/-! ## Cycles -/

/-- The conditions under which a cycle fails, in terms of the word at the program counter. -/
inductive Stops (machine : Machine) : Fault → Prop where
  /-- No word lies at the program counter. -/
  | outside (outside : 0xFFF ≤ machine.pc.toNat) :
      Stops machine (.outOfBounds (max machine.pc.toNat 0x1000))
  /-- The word is written for none of the instructions. -/
  | unknown {word : Opcode} (there : machine.memory.WordAt machine.pc.toNat word)
      (unwritten : ∀ instruction : Instruction, ¬ instruction.WrittenAs word) :
      Stops machine (.unknownOpcode word)
  /-- `00EE` without an open call. -/
  | underflow (there : machine.memory.WordAt machine.pc.toNat 0x00EE)
      (closed : machine.stack.returns = []) :
      Stops machine .stackUnderflow
  /-- `2nnn` with as many open calls as there may be. -/
  | overflow {nnn : Address}
      (there : machine.memory.WordAt machine.pc.toNat (.ofAddress 0x2 nnn))
      (full : machine.stack.returns.length = machine.config.stackDepth) :
      Stops machine (.stackOverflow machine.config.stackDepth)
  /-- `Dxyn` with a sprite that runs past memory; without rows it is its start that lies past. -/
  | sprite {x y : Register} {n : Digit}
      (there : machine.memory.WordAt machine.pc.toNat (.ofDigits 0xD x y n.val))
      (past : 4096 < machine.registers.index.toNat + n.val) :
      Stops machine (.outOfBounds (machine.registers.index.toNat + (n.val - 1)))
  /-- `Fx33` with digits that run past memory. -/
  | decimals {x : Register}
      (there : machine.memory.WordAt machine.pc.toNat (.ofByte 0xF x 0x33))
      (past : 4096 < machine.registers.index.toNat + 3) :
      Stops machine (.outOfBounds (machine.registers.index.toNat + 2))
  /-- `Fx55` or `Fx65` with registers that run past memory. -/
  | registers {x : Register} {kk : UInt8}
      (there : machine.memory.WordAt machine.pc.toNat (.ofByte 0xF x kk))
      (transfer : kk = 0x55 ∨ kk = 0x65)
      (past : 4096 < machine.registers.index.toNat + x.val + 1) :
      Stops machine (.outOfBounds (machine.registers.index.toNat + x.val))
  /-- `Ex9E` or `ExA1` with a register that numbers no key. -/
  | key {x : Register} {kk : UInt8}
      (there : machine.memory.WordAt machine.pc.toNat (.ofByte 0xE x kk))
      (skip : kk = 0x9E ∨ kk = 0xA1)
      (past : 0xF < (machine.v x).toNat) :
      Stops machine (.invalidKey (machine.v x))

/-- An instruction that is refused at the program counter stops the cycle. Calls are refused at the
greatest depth only, because the depth is never exceeded. -/
theorem Stops.of_refuses {word : Opcode} (sound : Sound config machine)
    (there : machine.memory.WordAt machine.pc.toNat word) (written : instruction.WrittenAs word)
    (refuses : (machine.fetched word).Refuses instruction fault) : machine.Stops fault := by
  cases refuses with
  | back closed =>
      cases written
      exact .underflow there closed
  | call full =>
      cases written
      have bounded := sound.depth_le
      rw [machine.stack.depth_eq, ← sound.config_eq] at bounded
      exact .overflow there (Nat.le_antisymm bounded full)
  | draw past =>
      cases written
      exact .sprite there past
  | storeBcd past =>
      cases written
      exact .decimals there past
  | storeRegisters past =>
      cases written
      exact .registers there (.inl rfl) past
  | loadRegisters past =>
      cases written
      exact .registers there (.inr rfl) past
  | skipIfPressed past =>
      cases written
      exact .key there (.inl rfl) past
  | skipIfNotPressed past =>
      cases written
      exact .key there (.inr rfl) past

theorem stops_of_cycle (sound : Sound config machine)
    (failed : machine.cycle.result = .error fault) : machine.Stops fault := by
  have way := machine.cycled
  generalize machine.cycle.result = result, machine.cycle.machine = after at failed way
  cases way with
  | unfetched unfetched =>
      cases failed
      rcases Memory.opcodeAt_eq_error_iff.mp unfetched with ⟨outside, rfl⟩
      exact .outside (Nat.le_of_succ_le_succ outside)
  | unknown found unknown =>
      cases failed
      have there := Memory.opcodeAt_eq_ok_iff_wordAt.mp found
      exact .unknown there (Instruction.ofOpcode?_eq_none_iff.mp unknown)
  | refused found known refused =>
      cases failed
      have there := Memory.opcodeAt_eq_ok_iff_wordAt.mp found
      have written := Instruction.ofOpcode?_eq_some_iff.mp known
      exact .of_refuses sound there written (refuses_of_execute refused)
  | carried => cases failed

theorem cycle_of_refuses (instruction : Instruction) {word : Opcode}
    (there : machine.memory.WordAt machine.pc.toNat word) (written : instruction.WrittenAs word)
    (refuses : (machine.fetched word).Refuses instruction fault) :
    machine.cycle.result = .error fault := by
  have found := Memory.opcodeAt_eq_ok_iff_wordAt.mpr there
  have known := Instruction.ofOpcode?_eq_some_iff.mpr written
  rw [cycle_of_refused found known (execute_of_refuses refuses)]

theorem cycle_of_stops (stops : machine.Stops fault) : machine.cycle.result = .error fault := by
  cases stops with
  | outside outside =>
      have unfetched : machine.memory.opcodeAt machine.pc = .error _ :=
        Memory.opcodeAt_eq_error_iff.mpr ⟨Nat.succ_le_succ outside, rfl⟩
      rw [cycle_of_unfetched unfetched]
      rfl
  | unknown there unwritten =>
      have found := Memory.opcodeAt_eq_ok_iff_wordAt.mpr there
      have unknown := Instruction.ofOpcode?_eq_none_iff.mpr unwritten
      rw [cycle_of_unknown found unknown]
  | underflow there closed =>
      exact cycle_of_refuses .returnFromSubroutine there rfl (.back closed)
  | overflow there full =>
      exact cycle_of_refuses (.call _) there rfl (.call (Nat.le_of_eq full.symm))
  | sprite there past =>
      exact cycle_of_refuses (.draw _ _ _) there rfl (.draw past)
  | decimals there past =>
      exact cycle_of_refuses (.storeBcd _) there rfl (.storeBcd past)
  | registers there transfer past =>
      rcases transfer with rfl | rfl
      · exact cycle_of_refuses (.storeRegisters _) there rfl (.storeRegisters past)
      · exact cycle_of_refuses (.loadRegisters _) there rfl (.loadRegisters past)
  | key there skip past =>
      rcases skip with rfl | rfl
      · exact cycle_of_refuses (.skipIfPressed _) there rfl (.skipIfPressed past)
      · exact cycle_of_refuses (.skipIfNotPressed _) there rfl (.skipIfNotPressed past)

/-- An address that stops a cycle lies past memory, never in it. -/
theorem Stops.size_le {address : Nat} (stops : machine.Stops (.outOfBounds address)) :
    Memory.size ≤ address := by
  simp only [Memory.size]
  cases stops with
  | outside => exact Nat.le_max_right _ _
  | sprite there past => omega
  | decimals there past => omega
  | registers there transfer past => omega

/-- A cycle of a reachable machine fails exactly under the conditions listed, each with its own
fault, and comes to an end otherwise. Addresses that it reports lie past memory, and the faults of
roms, configurations and files are not among its faults. -/
theorem cycle_error_iff (reached : Reachable config machine) :
    (∀ fault, machine.cycle.result = .error fault ↔ machine.Stops fault) ∧
      ((∀ fault, ¬ machine.Stops fault) → ∃ progress, machine.cycle.result = .ok progress) ∧
      ∀ fault, machine.cycle.result = .error fault →
        (∀ address, fault = .outOfBounds address → 0x1000 ≤ address) ∧
        (∀ size room, fault ≠ .romTooLarge size room) ∧
        (∀ start, fault ≠ .fontOutsideMemory start) ∧
        (∀ start, fault ≠ .programOutsideMemory start) ∧
        ∀ reason, fault ≠ .unreadable reason := by
  have stops (fault : Fault) : machine.cycle.result = .error fault ↔ machine.Stops fault :=
    ⟨stops_of_cycle reached.sound, cycle_of_stops⟩
  refine ⟨stops, ?_, ?_⟩
  · intro none
    cases result : machine.cycle.result with
    | error fault => exact absurd ((stops fault).mp result) (none fault)
    | ok progress => exact ⟨progress, rfl⟩
  · intro fault failed
    have stopped := (stops fault).mp failed
    refine ⟨?_, ?_, ?_, ?_, ?_⟩
    · intro address same
      subst same
      exact stopped.size_le
    · intro size room same
      subst same
      cases stopped
    · intro start same
      subst same
      cases stopped
    · intro start same
      subst same
      cases stopped
    · intro reason same
      subst same
      cases stopped

set_option maxRecDepth 8000 in
theorem cycle_error_iff_of_return :
    ∃ machine, Reachable .standard machine ∧
      (machine.cycle.result = .error .stackUnderflow ↔ machine.Stops .stackUnderflow) ∧
      machine.cycle.result = .error .stackUnderflow := by
  have reached := (Reachable.built (build_standard .zeroKeyed)).afterAll
    [.load [0x00, 0xEE] 0x200]
  exact ⟨_, reached, (cycle_error_iff reached).1 _, by decide +kernel⟩

end Machine

end Chip8
