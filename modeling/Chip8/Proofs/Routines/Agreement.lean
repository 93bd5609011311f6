import Chip8.Proofs.Routines.Machine
import Chip8.Proofs.Safety.Invariant

/-!
# Routines agree with the machine

On a machine that satisfies the safety invariant no routine traps, and each comes to the reply that
the machine gives.
-/

namespace Chip8.Routine

open Machine

variable {machine : Machine}

/-- The reply to an instruction alone, which leaves the machine as it was when it is refused. -/
def carriedOut (machine : Machine) (instruction : Instruction) : Reply Progress :=
  match machine.execute instruction with
  | .ok (progress, after) => ⟨.ok progress, after, callEvents instruction machine after⟩
  | .error fault => .refused machine fault

/-! ## Parts of instructions -/

theorem skipIf_apply (room : machine.pc.toNat + 2 < UInt16.size) (condition : Bool) :
    skipIf condition machine = some (.done (machine.skipIf condition) ()) := by
  cases condition with
  | false => rfl
  | true =>
      simp only [skipIf, if_true, inspect_bind]
      rw [bind_of_done (plus_apply machine.pc 2 room machine)]
      rfl

theorem pressed_apply (x : Register) :
    pressed x machine = some ⟨machine.keyIn x, machine, []⟩ := by
  simp only [pressed, keyIn, inspect_bind]
  cases Key.ofByte (machine.v x) with
  | error fault => exact check_error_bind
  | ok key => exact check_ok_bind

/-- Bytes are copied over a range when it lies in memory and is as long as they are. -/
theorem copyOver_apply {source : Routine (List UInt8)} {bytes : List UInt8} (start : UInt16)
    (given : source machine = some (.done machine bytes)) :
    copyOver start bytes.length source machine =
      some (match machine.memory.load bytes start with
        | .ok memory => .done { machine with memory } ()
        | .error fault => .refused machine fault) := by
  simp only [copyOver, inspect_bind]
  by_cases fits : Memory.Fits start bytes.length
  · rw [Memory.slice_eq_ok_iff.mpr ⟨fits, rfl⟩, Memory.load_eq_ok_iff.mpr ⟨fits, rfl⟩,
      check_ok_bind, bind_of_done given, if_pos rfl, demand_some_bind]
    rfl
  · rw [Memory.slice_eq_error_iff.mpr ⟨fits, rfl⟩, Memory.load_eq_error_iff.mpr ⟨fits, rfl⟩,
      check_error_bind]

/-- Registers that are set one after the other are those that are set at once. -/
theorem setRegistersFrom_apply (machine : Machine) (values : List UInt8) (number : Nat)
    (enough : number + values.length ≤ 16) :
    ∃ registers, setRegistersFrom number values machine =
        some (.done { machine with registers } ()) ∧
      registers.index = machine.registers.index ∧ registers.delay = machine.registers.delay ∧
      registers.sound = machine.registers.sound ∧
      ∀ register, registers.get register =
        if number ≤ register.val then (values[register.val - number]?).getD (machine.v register)
        else machine.v register := by
  induction values generalizing number machine with
  | nil =>
      refine ⟨machine.registers, rfl, rfl, rfl, rfl, ?_⟩
      intro register
      simp only [List.getElem?_nil, Option.getD_none, ite_self]
      rfl
  | cons value rest ih =>
      simp only [List.length_cons] at enough
      have inside : number < 16 := by omega
      have found : Register.ofNat? number = some ⟨number, inside⟩ := dif_pos inside
      obtain ⟨registers, met, index, delay, sound, general⟩ :=
        ih (machine.setV ⟨number, inside⟩ value) (number + 1) (by omega)
      refine ⟨registers, ?_, index, delay, sound, ?_⟩
      · simp only [setRegistersFrom, found, demand_some_bind, setRegister, write_bind]
        exact met
      · intro register
        rw [general register]
        simp only [v_setV]
        grind

theorem setRegistersFrom_zero_apply {values : List UInt8} (enough : values.length ≤ 16) :
    setRegistersFrom 0 values machine =
      some (.done { machine with registers := machine.registers.setFirst values } ()) := by
  obtain ⟨registers, met, index, delay, sound, general⟩ :=
    setRegistersFrom_apply machine values 0 (by omega)
  have same : registers = machine.registers.setFirst values := by
    apply Registers.ext
    · intro register
      rw [general register, Registers.get_setFirst]
      simp only [Nat.zero_le, if_true, Nat.sub_zero]
      rfl
    · simp only [Registers.setFirst, index]
    · simp only [Registers.setFirst, delay]
    · simp only [Registers.setFirst, sound]
  rw [met, same]

/-! ## Instructions -/

/-- What has to hold so that the numbers of an instruction do not run over: the machine has moved
behind an opcode in memory, and the font lies in memory. -/
structure Settled (machine : Machine) : Prop where
  behind : 2 ≤ machine.pc.toNat
  inside : machine.pc.toNat ≤ Memory.size
  font : machine.config.fontStart.toNat ≤ Memory.size

theorem execute_skip (settled : Settled machine) (condition : Bool) :
    (do skipIf condition; return Progress.executed : Routine Progress) machine =
      some (.done (machine.skipIf condition) .executed) := by
  have room : machine.pc.toNat + 2 < UInt16.size := by
    have inside := settled.inside
    simp only [Memory.size] at inside
    simp only [UInt16.size]
    omega
  rw [bind_of_done (skipIf_apply room condition)]
  rfl

theorem execute_jumpPlusV0 (nnn : Address) :
    execute (.jumpPlusV0 nnn) machine = some (carriedOut machine (.jumpPlusV0 nnn)) := by
  have bound := nnn.isLt
  have small := (machine.v .zero).toNat_lt
  have fits : nnn.toWord.toNat + (machine.v .zero).toUInt16.toNat < UInt16.size := by
    simp only [Memory.size] at bound
    simp only [Address.toNat_toWord, UInt8.toNat_toUInt16, UInt16.size]
    omega
  simp only [execute, inspect_bind]
  rw [bind_of_done (plus_apply _ _ fits machine)]
  rfl

theorem execute_setIndexToGlyph (settled : Settled machine) (x : Register) :
    execute (.setIndexToGlyph x) machine = some (carriedOut machine (.setIndexToGlyph x)) := by
  have small := (machine.v x).toNat_lt
  have font := settled.font
  simp only [Memory.size] at font
  have product : (machine.v x).toUInt16.toNat * (UInt16.ofNat Font.glyphSize).toNat =
      5 * (machine.v x).toNat := by
    rw [UInt8.toNat_toUInt16]
    exact Nat.mul_comm _ _
  have fits : (machine.v x).toUInt16.toNat * (UInt16.ofNat Font.glyphSize).toNat <
      UInt16.size := by
    rw [product, UInt16.size]
    omega
  have offset : ((machine.v x).toUInt16 * UInt16.ofNat Font.glyphSize).toNat =
      5 * (machine.v x).toNat := by
    rw [UInt16.toNat_mul, product, Nat.mod_eq_of_lt]
    omega
  have same : (machine.v x).toUInt16 * UInt16.ofNat Font.glyphSize =
      UInt16.ofNat (Font.glyphSize * (machine.v x).toNat) := by
    apply UInt16.toNat_inj.mp
    rw [UInt16.toNat_mul, product, UInt16.toNat_ofNat']
    rfl
  have sum : machine.config.fontStart.toNat +
      ((machine.v x).toUInt16 * UInt16.ofNat Font.glyphSize).toNat < UInt16.size := by
    rw [offset, UInt16.size]
    omega
  simp only [execute, inspect_bind]
  rw [bind_of_done (times_apply _ _ fits machine), bind_of_done (plus_apply _ _ sum machine), same]
  rfl

theorem execute_waitForKey (settled : Settled machine) (x : Register) :
    execute (.waitForKey x) machine = some (carriedOut machine (.waitForKey x)) := by
  simp only [execute, inspect_bind, carriedOut, Machine.execute, awaitKey]
  cases machine.keypad.lowest? with
  | some key => rfl
  | none =>
      simp only [inspect_bind]
      rw [bind_of_done (minus_apply machine.pc 2 settled.behind machine)]
      rfl

theorem execute_draw (x y : Register) (n : Digit) :
    execute (.draw x y n) machine = some (carriedOut machine (.draw x y n)) := by
  simp only [execute, inspect_bind, carriedOut, Machine.execute, drawSprite]
  cases machine.memory.slice machine.registers.index n.val with
  | error fault => exact check_error_bind
  | ok sprite => exact check_ok_bind

theorem carriedOut_of_stored {instruction : Instruction} {bytes : List UInt8}
    (stored : machine.stored? instruction = some bytes) :
    carriedOut machine instruction =
      match machine.storeAtIndex bytes with
      | .ok after => .done after .executed
      | .error fault => .refused machine fault := by
  cases instruction with
  | storeBcd x | storeRegisters x =>
      cases stored
      simp only [carriedOut, Machine.execute]
      cases machine.storeAtIndex _ with
      | error fault => rfl
      | ok after => rfl
  | _ => cases stored

theorem execute_store {instruction : Instruction} {source : Routine (List UInt8)}
    {bytes : List UInt8} (stored : machine.stored? instruction = some bytes)
    (given : source machine = some (.done machine bytes)) :
    (do copyOver machine.registers.index bytes.length source
        return Progress.executed : Routine Progress) machine =
      some (carriedOut machine instruction) := by
  have copied := copyOver_apply machine.registers.index given
  rw [carriedOut_of_stored stored]
  simp only [storeAtIndex]
  cases loaded : machine.memory.load bytes machine.registers.index with
  | error fault =>
      rw [loaded] at copied
      exact bind_of_error copied
  | ok memory =>
      rw [loaded] at copied
      exact bind_of_done copied

theorem execute_loadRegisters (x : Register) :
    execute (.loadRegisters x) machine = some (carriedOut machine (.loadRegisters x)) := by
  simp only [execute, inspect_bind, carriedOut, Machine.execute, fetchRegisters]
  cases found : machine.memory.slice machine.registers.index (x.val + 1) with
  | error fault => exact check_error_bind
  | ok bytes =>
      rcases Memory.slice_eq_ok_iff.mp found with ⟨_, rfl⟩
      have enough : (machine.memory.read machine.registers.index.toNat (x.val + 1)).length ≤ 16 := by
        rw [Memory.length_read]
        exact x.isLt
      rw [check_ok_bind, bind_of_done (setRegistersFrom_zero_apply enough)]
      rfl

theorem execute_apply (settled : Settled machine) (instruction : Instruction) :
    execute instruction machine = some (carriedOut machine instruction) := by
  cases instruction with
  | clearScreen | jump | loadByte | addByte | load | or | and | xor | add | sub | shiftRight
  | subReversed | shiftLeft | setIndex | random | loadDelayTimer | setDelayTimer
  | setSoundTimer => rfl
  | returnFromSubroutine =>
      simp only [execute, inspect_bind, carriedOut, Machine.execute]
      cases machine.stack.pop with
      | error fault => exact check_error_bind
      | ok popped => exact check_ok_bind
  | call nnn =>
      simp only [execute, inspect_bind, carriedOut, Machine.execute]
      cases machine.stack.push machine.config.stackDepth machine.pc with
      | error fault => exact check_error_bind
      | ok stack => exact check_ok_bind
  | skipIfEqualByte | skipIfNotEqualByte | skipIfEqual | skipIfNotEqual =>
      simp only [execute, inspect_bind]
      exact execute_skip settled _
  | skipIfPressed x | skipIfNotPressed x =>
      simp only [execute, carriedOut, Machine.execute]
      cases found : machine.keyIn x with
      | error fault =>
          exact bind_of_error (by rw [pressed_apply, found])
      | ok pressed =>
          rw [bind_of_done (by rw [pressed_apply, found]; rfl)]
          exact execute_skip settled _
  | jumpPlusV0 nnn => exact execute_jumpPlusV0 nnn
  | draw x y n => exact execute_draw x y n
  | waitForKey x => exact execute_waitForKey settled x
  | addToIndex x =>
      simp only [execute, inspect_bind, carriedOut, Machine.execute, addToIndex]
      cases machine.config.flagsIndexOverflow with
      | false => rfl
      | true => rfl
  | setIndexToGlyph x => exact execute_setIndexToGlyph settled x
  | storeBcd x =>
      have stored : machine.stored? (.storeBcd x) =
          some (Arithmetic.decimalDigits (machine.v x)) := rfl
      simp only [execute, inspect_bind]
      exact execute_store stored pure_apply
  | storeRegisters x =>
      have taken : leading machine.registers (x.val + 1) machine =
          some (.done machine (machine.registers.upTo x)) := leading_apply _ x.isLt machine
      have stored : machine.stored? (.storeRegisters x) = some (machine.registers.upTo x) := rfl
      have written := execute_store stored taken
      rw [Registers.length_upTo] at written
      simp only [execute, inspect_bind]
      exact written
  | loadRegisters x => exact execute_loadRegisters x

/-! ## Cycles and frames -/

theorem Settled.of_sound {config : Config} {opcode : Opcode} (sound : Sound config machine)
    (found : machine.memory.opcodeAt machine.pc = .ok opcode) :
    Settled (machine.fetched opcode) := by
  rcases toNat_pc_fetched found with ⟨moved, inside⟩
  have fits := (Config.check_eq_ok_iff.mp sound.layout).1
  simp only [Memory.Fits] at fits
  refine ⟨?_, ?_, ?_⟩
  · rw [moved]
    exact Nat.le_add_left _ _
  · rw [moved]
    exact inside
  · rw [show (machine.fetched opcode).config = config from sound.config_eq]
    exact Nat.le_trans (Nat.le_add_right _ _) fits

theorem interpret_apply (settled : Settled machine) (opcode : Opcode) :
    interpret opcode machine = some (machine.interpret (machine.pc - 2) opcode) := by
  have address := minus_apply machine.pc 2 settled.behind machine
  simp only [interpret, Machine.interpret, Instruction.ofOpcode]
  cases Instruction.ofOpcode? opcode with
  | none =>
      have refused : check (α := Instruction) (.error (.unknownOpcode opcode)) machine =
          some (.refused machine (.unknownOpcode opcode)) := rfl
      apply bind_of_error
      rw [onFault_of_error refused]
      simp only [inspect_bind]
      rw [bind_of_done address]
      rfl
  | some instruction =>
      have known : check (.ok instruction) machine = some (.done machine instruction) := rfl
      have carried := execute_apply settled instruction
      rw [bind_of_done (onFault_of_ok known), inspect_bind, bind_of_done address, report_bind]
      simp only [carryOut, carriedOut] at carried ⊢
      cases met : machine.execute instruction with
      | error fault =>
          rw [met] at carried
          rw [bind_of_error (onFault_of_error carried)]
          rfl
      | ok outcome =>
          rw [met] at carried
          rw [bind_of_ok (onFault_of_ok carried)]
          rfl

theorem cycle_apply {config : Config} (sound : Sound config machine) :
    cycle machine = some machine.cycle := by
  simp only [cycle, Machine.cycle, inspect_bind]
  cases found : machine.memory.opcodeAt machine.pc with
  | error fault => exact check_error_bind
  | ok opcode =>
      have settled := Settled.of_sound sound found
      rcases toNat_pc_fetched found with ⟨_, inside⟩
      have room : machine.pc.toNat + 2 < UInt16.size := by
        simp only [Memory.size] at inside
        rw [UInt16.size]
        omega
      have back : (machine.fetched opcode).pc - 2 = machine.pc := UInt16.add_sub_cancel _ _
      have read := interpret_apply settled opcode
      rw [back] at read
      rw [check_ok_bind, write_bind, inspect_bind, bind_of_done (plus_apply machine.pc 2 room _)]
      simp only [setPc, write_bind]
      exact read

theorem cycles_apply {config : Config} (sound : Sound config machine) (limit : Nat) :
    cycles limit machine =
      some ⟨(machine.run limit).result, (machine.run limit).machine, (machine.run limit).log⟩ := by
  induction limit generalizing machine with
  | zero => rfl
  | succ limit ih =>
      have first := cycle_apply sound
      have later := sound.cycle
      simp only [cycles, run_succ]
      generalize machine.cycle = reply at first later
      rcases reply with ⟨result, after, log⟩
      cases result with
      | error fault => rw [bind_of_error first]
      | ok progress =>
          rw [bind_of_ok first]
          cases progress with
          | waitingForKey register =>
              simp only [pure_apply, Option.map_some, Reply.done, List.append_nil]
          | executed =>
              simp only [ih later, Option.map_some]

theorem frame_apply {config : Config} (sound : Sound config machine) (limit : Nat) :
    frame limit machine = some (machine.runFrame limit) := by
  have cycled := cycles_apply sound limit
  simp only [frame, runFrame]
  generalize machine.run limit = run at cycled
  rcases run with ⟨result, after, log, count⟩
  cases result with
  | error fault => rw [bind_of_error cycled]
  | ok progress =>
      rw [bind_of_ok cycled]
      rfl

/-! ## Requests -/

theorem load_apply (bytes : List UInt8) (start : UInt16) :
    load bytes start machine = some (machine.load bytes start) :=
  copyOver_apply start pure_apply

theorem loadRom_apply (layout : machine.config.check = .ok ()) (rom : Rom) :
    loadRom rom machine = some (machine.loadRom rom) := by
  have fits := (Config.check_eq_ok_iff.mp layout).2
  simp only [Memory.Fits] at fits
  have inside : machine.config.programStart.toNat ≤ Memory.size :=
    Nat.le_trans (Nat.le_add_right _ _) fits
  have loaded : load rom.bytes machine.config.programStart machine = some _ := load_apply _ _
  have room : beyond Memory.size machine.config.programStart machine =
      some (.done machine machine.config.room) := beyond_apply inside machine
  simp only [loadRom, inspect_bind, Machine.loadRom]
  rw [bind_of_done room]
  by_cases small : rom.size ≤ machine.config.room
  · rw [if_pos small, if_pos small]
    simp only [Machine.load] at loaded ⊢
    cases stored : machine.memory.load rom.bytes machine.config.programStart with
    | error fault =>
        rw [stored] at loaded
        exact bind_of_error loaded
    | ok memory =>
        rw [stored] at loaded
        exact bind_of_done loaded
  · rw [if_neg small, if_neg small]
    rfl

theorem setKey_apply (number : UInt8) (pressed : Bool) :
    setKey number pressed machine = some (machine.setKey number pressed) := by
  simp only [setKey, Machine.setKey]
  cases Key.ofByte number with
  | error fault => exact check_error_bind
  | ok key => exact check_ok_bind

/-- On a machine that satisfies the safety invariant, the routine of every request comes to the
reply that the machine gives. -/
theorem perform_apply {config : Config} (sound : Sound config machine) (request : Request) :
    perform request machine = some (machine.perform request) := by
  cases request with
  | loadRom rom =>
      have layout := sound.layout
      rw [← sound.config_eq] at layout
      exact bind_pure_of_some (loadRom_apply layout rom)
  | load bytes start => exact bind_pure_of_some (load_apply bytes start)
  | cycle => exact bind_pure_of_some (cycle_apply sound)
  | frame limit => exact bind_pure_of_some (frame_apply sound limit)
  | tick => rfl
  | setKey key pressed => exact bind_pure_of_some (setKey_apply key pressed)
  | releaseKeys => rfl
  | takeRedraw => rfl

end Chip8.Routine
