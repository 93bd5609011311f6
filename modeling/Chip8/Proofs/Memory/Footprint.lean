import Mathlib.Control.Monad.Basic
import Chip8.Proofs.Memory.Replay

/-!
# What a cycle reads of memory

A cycle reads the two bytes of its opcode, and two instructions read more: one the rows of a sprite and
one the bytes that it puts into the registers, both from the index register on. `Reads` lists these
addresses. Nothing else of memory has an effect, whatever lies there: a cycle under another memory that
shows the same at these addresses does the same, and writes the same bytes.

`execute_withMemory` compares an instruction under two memories, `cycle_withMemory` a cycle, and
`byte?_cycle_withMemory` says what the two memories are afterwards.
-/

namespace Chip8

namespace Memory

variable {left right : Memory}

theorem read_congr {start count : Nat}
    (same : ∀ place, start ≤ place → place < start + count →
      right.byte? place = left.byte? place) : right.read start count = left.read start count := by
  apply List.map_congr_left
  intro place inside
  rcases List.mem_range'_1.mp inside with ⟨above, below⟩
  rw [same place above below]

theorem opcodeAt_congr {address : UInt16}
    (high : right.byte? address.toNat = left.byte? address.toNat)
    (low : right.byte? (address.toNat + 1) = left.byte? (address.toNat + 1)) :
    right.opcodeAt address = left.opcodeAt address := by
  have first : right.byteAt address = left.byteAt address := by simp only [byteAt, high]
  simp only [opcodeAt, first]
  cases found : left.byteAt address with
  | error fault => rfl
  | ok byte =>
      have behind := toNat_succ (lt_size_of_byte? (byteAt_eq_ok_iff.mp found))
      have second : right.byteAt (address + 1) = left.byteAt (address + 1) := by
        simp only [byteAt, behind, low]
      rw [second]

end Memory

/-- The number of bytes that an instruction reads at the index register. -/
def Instruction.fetches : Instruction → Nat
  | .draw _ _ n => n.val
  | .loadRegisters x => x.val + 1
  | _ => 0

namespace Machine

/-- The addresses that a cycle reads. -/
inductive Reads (machine : Machine) : Nat → Prop where
  /-- The high byte of the opcode. -/
  | high : Reads machine machine.pc.toNat
  /-- The low byte of the opcode. -/
  | low : Reads machine (machine.pc.toNat + 1)
  /-- `Dxyn` reads the `n` rows of a sprite. -/
  | sprite {x y : Register} {n : Digit} {row : Nat}
      (there : machine.memory.WordAt machine.pc.toNat (.ofDigits 0xD x y n.val))
      (below : row < n.val) : Reads machine (machine.registers.index.toNat + row)
  /-- `Fx65` reads a byte for each of `V0` to `Vx`. -/
  | registers {x register : Register}
      (there : machine.memory.WordAt machine.pc.toNat (.ofByte 0xF x 0x65))
      (covered : register ≤ x) : Reads machine (machine.registers.index.toNat + register.val)

def withMemory (machine : Machine) (memory : Memory) : Machine :=
  { machine with memory }

/-- Two machines are the same but for their memories. -/
def SameButMemory (left right : Machine) : Prop :=
  right = left.withMemory right.memory

@[simp] theorem v_withMemory (machine : Machine) (memory : Memory) (register : Register) :
    (machine.withMemory memory).v register = machine.v register := rfl

variable {machine : Machine} {memory : Memory} {instruction : Instruction} {address : Nat}
variable {value : UInt8}

theorem store_withMemory (bytes : List UInt8) :
    Alike SameButMemory (machine.storeAtIndex bytes >>= fun stored => stored.executed)
      ((machine.withMemory memory).storeAtIndex bytes >>= fun stored => stored.executed) := by
  by_cases inside : Memory.Fits machine.registers.index bytes.length
  · have met : machine.storeAtIndex bytes = .ok _ := storeAtIndex_eq_ok_iff.mpr ⟨inside, rfl⟩
    have also : (machine.withMemory memory).storeAtIndex bytes = .ok _ :=
      storeAtIndex_eq_ok_iff.mpr ⟨inside, rfl⟩
    rw [met, also]
    exact .carried rfl
  · have refused : machine.storeAtIndex bytes = .error _ :=
      storeAtIndex_eq_error_iff.mpr ⟨inside, rfl⟩
    have also : (machine.withMemory memory).storeAtIndex bytes = .error _ :=
      storeAtIndex_eq_error_iff.mpr ⟨inside, rfl⟩
    rw [refused, also]
    exact .refused

/-- An instruction does the same under another memory that shows the same bytes where it reads. -/
theorem execute_withMemory
    (same : memory.read machine.registers.index.toNat instruction.fetches =
      machine.memory.read machine.registers.index.toNat instruction.fetches) :
    Alike SameButMemory (machine.execute instruction)
      ((machine.withMemory memory).execute instruction) := by
  cases instruction with
  | returnFromSubroutine =>
      simp only [execute, withMemory]
      cases machine.stack.pop with
      | error fault => exact .refused
      | ok popped => exact .carried rfl
  | call nnn =>
      simp only [execute, withMemory]
      cases machine.stack.push machine.config.stackDepth machine.pc with
      | error fault => exact .refused
      | ok pushed => exact .carried rfl
  | draw x y n =>
      simp only [Instruction.fetches] at same
      simp only [execute, drawSprite, withMemory, Memory.slice, same]
      split
      next => exact .carried rfl
      next => exact .refused
  | skipIfPressed x | skipIfNotPressed x =>
      simp only [execute, keyIn, withMemory, v]
      cases Key.ofByte (machine.registers.get x) with
      | error fault => exact .refused
      | ok key => exact .carried rfl
  | waitForKey x =>
      simp only [execute, awaitKey, withMemory]
      cases machine.keypad.lowest? with
      | none => exact .carried rfl
      | some key => exact .carried rfl
  | storeBcd x | storeRegisters x => exact store_withMemory _
  | loadRegisters x =>
      simp only [Instruction.fetches] at same
      simp only [execute, fetchRegisters, withMemory, Memory.slice, same]
      split
      next => exact .carried rfl
      next => exact .refused
  | _ => exact .carried rfl

/-- A cycle reads its opcode, and what its instruction reads at the index register. -/
theorem reads_iff {opcode : Opcode} (found : machine.memory.opcodeAt machine.pc = .ok opcode)
    (known : Instruction.ofOpcode? opcode = some instruction) :
    machine.Reads address ↔
      address = machine.pc.toNat ∨ address = machine.pc.toNat + 1 ∨
        machine.registers.index.toNat ≤ address ∧
          address < machine.registers.index.toNat + instruction.fetches := by
  have same (other : Instruction)
      (there : machine.memory.WordAt machine.pc.toNat other.opcode) : instruction = other :=
    Instruction.eq_of_opcode known ((Memory.opcodeAt_eq_ok_iff_wordAt.mp found).eq there)
  constructor
  · intro reads
    cases reads with
    | high => exact .inl rfl
    | low => exact .inr (.inl rfl)
    | @sprite x y n row there below =>
        rw [same (.draw x y n) there]
        exact .inr (.inr ⟨Nat.le_add_right _ _, Nat.add_lt_add_left below _⟩)
    | @registers x register there covered =>
        rw [same (.loadRegisters x) there]
        exact .inr (.inr ⟨Nat.le_add_right _ _, Nat.add_lt_add_left (Nat.lt_succ_of_le covered) _⟩)
  · rintro (rfl | rfl | ⟨above, below⟩)
    · exact .high
    · exact .low
    · have there := Memory.opcodeAt_eq_ok_iff_wordAt.mp found
      have written := Instruction.ofOpcode?_eq_some_iff.mp known
      have within := Nat.sub_lt_left_of_lt_add above below
      rw [← Nat.add_sub_cancel' above]
      cases instruction with
      | draw x y n =>
          cases written
          exact .sprite there within
      | loadRegisters x =>
          cases written
          have inside := Nat.lt_of_lt_of_le within x.isLt
          exact @Reads.registers machine x ⟨_, inside⟩ there (Nat.le_of_lt_succ within)
      | _ => cases within

theorem fetch_withMemory
    (same : ∀ place, machine.Reads place → memory.byte? place = machine.memory.byte? place) :
    (machine.withMemory memory).memory.opcodeAt (machine.withMemory memory).pc =
      machine.memory.opcodeAt machine.pc :=
  Memory.opcodeAt_congr (same _ .high) (same _ .low)

/-- A cycle does the same under another memory that shows the same bytes where it reads. -/
theorem cycle_withMemory
    (same : ∀ place, machine.Reads place → memory.byte? place = machine.memory.byte? place) :
    (machine.withMemory memory).cycle.result = machine.cycle.result ∧
      SameButMemory machine.cycle.machine (machine.withMemory memory).cycle.machine := by
  have fetch := fetch_withMemory same
  have start : SameButMemory machine (machine.withMemory memory) := rfl
  refine cycle_alike start fetch (fun _ => rfl) ?_
  intro opcode instruction found known
  apply execute_withMemory
  apply Memory.read_congr
  intro place above below
  exact same place ((reads_iff found known).mpr (.inr (.inr ⟨above, below⟩)))

theorem writes_withMemory_iff
    (same : ∀ place, machine.Reads place → memory.byte? place = machine.memory.byte? place) :
    (machine.withMemory memory).Writes .cycle address value ↔
      machine.Writes .cycle address value := by
  have succeeds : (machine.withMemory memory).succeeds? = machine.succeeds? := by
    simp only [succeeds?, (cycle_withMemory same).1, fetch_withMemory same]
  have stores : (machine.withMemory memory).stored? = machine.stored? := by
    funext instruction
    cases instruction <;> rfl
  have written : (machine.withMemory memory).written? .cycle = machine.written? .cycle := by
    simp only [written?, succeeds, stores]
    rfl
  rw [writes_iff, writes_iff, written]

/-- A byte is left as it was under both memories, or it is written under both and is the same. -/
theorem byte?_cycle_withMemory
    (same : ∀ place, machine.Reads place → memory.byte? place = machine.memory.byte? place)
    (address : Nat) :
    let other := machine.withMemory memory
    machine.cycle.machine.memory.byte? address = machine.memory.byte? address ∧
        other.cycle.machine.memory.byte? address = memory.byte? address ∨
      ∃ value, machine.Writes .cycle address value ∧
        machine.cycle.machine.memory.byte? address = some value ∧
        other.cycle.machine.memory.byte? address = some value := by
  intro other
  by_cases quiet : ∀ value, ¬ machine.Writes .cycle address value
  · have also : ∀ value, ¬ other.Writes .cycle address value := by
      intro value writes
      exact quiet value ((writes_withMemory_iff same).mp writes)
    exact .inl ⟨byte?_of_quiet quiet, byte?_of_quiet also⟩
  · rcases Classical.not_forall_not.mp quiet with ⟨value, writes⟩
    have also : other.Writes .cycle address value := (writes_withMemory_iff same).mpr writes
    exact .inr ⟨value, writes, byte?_of_writes writes, byte?_of_writes also⟩

/-- A byte that a cycle does not read has no effect on it. With any other byte in its place the cycle
comes to the same and leaves the same machine but for memory, and there the same bytes everywhere else;
at this place each memory keeps its own byte, unless the cycle writes there, which it does alike. -/
theorem unread_byte_unseen (machine : Machine) {address : Nat} (inside : address < 4096)
    (unread : ¬ machine.Reads address) (value : UInt8) :
    let other := machine.withMemory (machine.memory.write address [value])
    other.cycle.result = machine.cycle.result ∧
      other.cycle.machine = machine.cycle.machine.withMemory other.cycle.machine.memory ∧
      (∀ place ≠ address, other.cycle.machine.memory.byte? place =
        machine.cycle.machine.memory.byte? place) ∧
      (machine.cycle.machine.memory.byte? address = machine.memory.byte? address ∧
          other.cycle.machine.memory.byte? address = some value ∨
        ∃ written, machine.Writes .cycle address written ∧
          machine.cycle.machine.memory.byte? address = some written ∧
          other.cycle.machine.memory.byte? address = some written) := by
  intro other
  have elsewhere (place : Nat) (different : place ≠ address) :
      (machine.memory.write address [value]).byte? place = machine.memory.byte? place := by
    apply machine.memory.byte?_write_of_ne
    intro offset below
    rw [Nat.lt_one_iff.mp below]
    exact different
  have given : [value][0]? = some value := rfl
  have replaced : (machine.memory.write address [value]).byte? address = some value :=
    machine.memory.byte?_write_of_given inside given
  have same (place : Nat) (reads : machine.Reads place) :
      (machine.memory.write address [value]).byte? place = machine.memory.byte? place := by
    apply elsewhere
    rintro rfl
    exact unread reads
  rcases cycle_withMemory same with ⟨result, rest⟩
  refine ⟨result, rest, ?_, ?_⟩
  · intro place different
    rcases byte?_cycle_withMemory same place with ⟨kept, also⟩ | ⟨_, _, written, also⟩
    · rw [kept, also, elsewhere place different]
    · rw [written, also]
  · rw [← replaced]
    exact byte?_cycle_withMemory same address

set_option maxRecDepth 8000 in
theorem unread_byte_unseen_of_byte_behind :
    ∃ start : Machine, build .standard .zeroKeyed = .ok start ∧
      let program := [0xA2, 0x04, 0xF1, 0x65, 0x11, 0x22, 0x33]
      let machine := start.afterAll [.load program 0x200, .frame 1]
      let other := machine.withMemory (machine.memory.write 0x206 [0x44])
      ¬ machine.Reads 0x206 ∧ machine.Reads 0x205 ∧ other.cycle.result = .ok .executed ∧
        other.cycle.machine.v 1 = 0x22 ∧
        other.cycle.machine.memory.byte? 0x205 = machine.cycle.machine.memory.byte? 0x205 := by
  refine ⟨_, build_standard .zeroKeyed, ?_⟩
  intro program
  generalize made : afterAll _ [.load program 0x200, .frame 1] = machine
  intro other
  have seen : machine.memory.opcodeAt machine.pc = .ok 0xF165 ∧ machine.pc.toNat = 0x202 ∧
      machine.registers.index.toNat = 0x204 ∧ machine.cycle.result = .ok .executed ∧
      machine.cycle.machine.v 1 = 0x22 := by
    subst made
    decide +kernel
  rcases seen with ⟨found, place, index, executed, fetched⟩
  have known : Instruction.ofOpcode? 0xF165 = some (.loadRegisters 1) := rfl
  have unread : ¬ machine.Reads 0x206 := by
    rw [reads_iff found known, place, index]
    decide
  have read : machine.Reads 0x205 := by
    rw [reads_iff found known, place, index]
    decide
  rcases unread_byte_unseen machine (by decide) unread 0x44 with ⟨result, rest, elsewhere, _⟩
  refine ⟨unread, read, result.trans executed, ?_, elsewhere 0x205 (by decide)⟩
  rw [rest, v_withMemory]
  exact fetched

end Machine

end Chip8
