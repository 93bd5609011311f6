import Mathlib.Control.Monad.Basic
import Chip8.Proofs.Machine.Cycles
import Chip8.Proofs.Runs.Acts

/-!
# Results and flags

Five instructions put the result of an operation into a register and then set the flag. A byte alone
loses something of a sum, a difference, a half or a double, and the flag is just what is lost: result
and flag together satisfy an exact law of integers. The flag comes from the operands as they were and
is set last, so it does not matter which of the registers are the same one, except that a result which
goes to the flag register is lost to the flag.

`Law.flag_eq` says that such a law leaves one flag only, and `computes` what a cycle does.
-/

namespace Chip8

/-- The operations that set the flag. -/
inductive Operation where
  | add
  | sub
  | half
  | subReversed
  | double
  deriving DecidableEq, Repr

namespace Operation

def digit : Operation → Nat
  | add => 0x4
  | sub => 0x5
  | half => 0x6
  | subReversed => 0x7
  | double => 0xE

/-- The flag that belongs to two operands: the carry of a sum, one for a difference that needs no
borrow, the bit that falls out of a half or a double. -/
def flag (operation : Operation) (left right : Nat) : Nat :=
  match operation with
  | add => (left + right) / 256
  | sub => if right ≤ left then 1 else 0
  | half => left % 2
  | subReversed => if left ≤ right then 1 else 0
  | double => 2 * left / 256

/-- What result and flag are to the operands, as integers. -/
def Law (operation : Operation) (left right result flag : Nat) : Prop :=
  match operation with
  | add => result + 256 * flag = left + right
  | sub => result + right = left + 256 * (1 - flag)
  | half => left = 2 * result + flag
  | subReversed => result + left = right + 256 * (1 - flag)
  | double => 2 * left = result + 256 * flag

def instruction (operation : Operation) (x y : Register) : Instruction :=
  match operation with
  | add => .add x y
  | sub => .sub x y
  | half => .shiftRight x
  | subReversed => .subReversed x y
  | double => .shiftLeft x

/-- The result and the flag as bytes are computed. -/
def outcome (operation : Operation) (left right : UInt8) : UInt8 × Bool :=
  match operation with
  | add => Arithmetic.add left right
  | sub => Arithmetic.sub left right
  | half => Arithmetic.half left
  | subReversed => Arithmetic.sub right left
  | double => Arithmetic.double left

variable (operation : Operation)

theorem law_outcome (left right : UInt8) :
    operation.Law left.toNat right.toNat (operation.outcome left right).1.toNat
      (operation.outcome left right).2.toNat := by
  have known := Bool.toNat_le (operation.outcome left right).2
  cases operation with
  | add => exact Arithmetic.toNat_add left right
  | half => exact Arithmetic.toNat_half left
  | double => exact Arithmetic.toNat_double left
  | sub =>
      have exact_sum := Arithmetic.toNat_sub left right
      simp only [Law, outcome] at known ⊢
      omega
  | subReversed =>
      have exact_sum := Arithmetic.toNat_sub right left
      simp only [Law, outcome] at known ⊢
      omega

variable {operation} in
/-- Of two bytes a law leaves no other flag than theirs. -/
theorem Law.flag_eq {left right result flag : Nat} (law : operation.Law left right result flag)
    (leftBound : left < 256) (rightBound : right < 256) (resultBound : result < 256)
    (known : flag ≤ 1) : flag = operation.flag left right := by
  cases operation with
  | add | half | double =>
      simp only [Law, Operation.flag] at law ⊢
      omega
  | sub | subReversed =>
      simp only [Law, Operation.flag] at law ⊢
      split <;> omega

theorem toNat_flag_outcome (left right : UInt8) :
    (operation.outcome left right).2.toNat = operation.flag left.toNat right.toNat :=
  (operation.law_outcome left right).flag_eq left.toNat_lt right.toNat_lt (UInt8.toNat_lt _)
    (Bool.toNat_le _)

theorem writtenAs_instruction (x y : Register) :
    (operation.instruction x y).WrittenAs (.ofDigits 0x8 x y operation.digit) := by
  cases operation with
  | half | double => exact ⟨y, rfl⟩
  | add | sub | subReversed => rfl

end Operation

namespace Machine

/-- A cycle that does an operation on `Vx` and `Vy`: the flag is that of the operands, result and flag
satisfy the law unless the result goes to the flag register, and no other register changes. -/
structure Computes (machine : Machine) (operation : Operation) (x y : Register) : Prop where
  executed : machine.cycle.result = .ok .executed
  flag_le : (machine.cycle.machine.v .flag).toNat ≤ 1
  flag_eq : (machine.cycle.machine.v .flag).toNat =
    operation.flag (machine.v x).toNat (machine.v y).toNat
  law : x ≠ .flag → operation.Law (machine.v x).toNat (machine.v y).toNat
    (machine.cycle.machine.v x).toNat (machine.cycle.machine.v .flag).toNat
  others_eq : ∀ other, other ≠ x → other ≠ .flag → machine.cycle.machine.v other = machine.v other
  machine_eq : machine.cycle.machine = { machine with
    opcode := .ofDigits 0x8 x y operation.digit
    pc := machine.pc + 2
    registers := { machine.registers with general := machine.cycle.machine.registers.general } }

/-- A cycle on a word that puts a value into one register and leaves all others alone. -/
structure Puts (machine : Machine) (word : Opcode) (x : Register) (value : Nat) : Prop where
  executed : machine.cycle.result = .ok .executed
  value_eq : (machine.cycle.machine.v x).toNat = value
  others_eq : ∀ other ≠ x, machine.cycle.machine.v other = machine.v other
  machine_eq : machine.cycle.machine = { machine with
    opcode := word
    pc := machine.pc + 2
    registers := { machine.registers with general := machine.cycle.machine.registers.general } }

variable {machine : Machine} {x y : Register}

theorem execute_instruction (machine : Machine) (operation : Operation) (x y : Register) :
    machine.execute (operation.instruction x y) =
      executed (machine.setVWithFlag x (operation.outcome (machine.v x) (machine.v y))) := by
  cases operation <;> rfl

/-- Whichever registers are the same one, an operation leaves its result and its flag. -/
theorem computes {operation : Operation}
    (there : machine.memory.WordAt machine.pc.toNat (.ofDigits 0x8 x y operation.digit)) :
    Computes machine operation x y := by
  rcases cycle_of_written _ there (operation.writtenAs_instruction x y)
    (execute_instruction _ operation x y) with ⟨executed, after_eq⟩
  have flag : (machine.cycle.machine.v .flag).toNat =
      (operation.outcome (machine.v x) (machine.v y)).2.toNat := by
    rw [after_eq, v_setVWithFlag, if_pos rfl, Registers.toNat_toUInt8]
    rfl
  exact
    { executed
      flag_le := by
        rw [flag]
        exact Bool.toNat_le _
      flag_eq := by rw [flag, Operation.toNat_flag_outcome]
      law := by
        intro apart
        rw [flag, after_eq, v_setVWithFlag, if_neg apart.symm, if_pos rfl]
        exact operation.law_outcome _ _
      others_eq := by
        intro other different unflagged
        rw [after_eq, v_setVWithFlag, if_neg unflagged.symm, if_neg different.symm]
        rfl
      machine_eq := by
        rw [after_eq]
        rfl }

theorem puts (instruction : Instruction) {value : UInt8}
    (there : machine.memory.WordAt machine.pc.toNat instruction.opcode)
    (met : (machine.fetched instruction.opcode).execute instruction =
      executed ((machine.fetched instruction.opcode).setV x value)) :
    Puts machine instruction.opcode x value.toNat := by
  rcases cycle_of_word instruction there met with ⟨executed, after_eq⟩
  exact
    { executed
      value_eq := by rw [after_eq, v_setV, if_pos rfl]
      others_eq := by
        intro other different
        rw [after_eq, v_setV, if_neg different.symm]
        rfl
      machine_eq := by
        rw [after_eq]
        rfl }

/-- A sum from which the same byte is subtracted again is the byte that it was made of, and the two
flags are complements. -/
theorem sub_of_add (apart : x ≠ y) (result : x ≠ .flag) (operand : y ≠ .flag)
    (adds : machine.memory.WordAt machine.pc.toNat (.ofDigits 0x8 x y 0x4))
    (subtracts : machine.memory.WordAt (machine.pc.toNat + 2) (.ofDigits 0x8 x y 0x5)) :
    let first := machine.cycle.machine
    let second := first.cycle.machine
    first.cycle.result = .ok .executed ∧ second.v x = machine.v x ∧
      (second.v .flag).toNat = 1 - (first.v .flag).toNat := by
  intro first second
  have added : Computes machine .add x y := computes adds
  have there : first.memory.WordAt first.pc.toNat (.ofDigits 0x8 x y 0x5) := by
    rw [show first = _ from added.machine_eq]
    have place := (toNat_pc_fetched (Memory.opcodeAt_eq_ok_iff_wordAt.mpr adds)).1
    exact place.symm ▸ subtracts
  have subtracted : Computes first .sub x y := computes there
  have sum : (first.v x).toNat + 256 * (first.v .flag).toNat =
      (machine.v x).toNat + (machine.v y).toNat := added.law result
  have difference : (second.v x).toNat + (first.v y).toNat =
      (first.v x).toNat + 256 * (1 - (second.v .flag).toNat) := subtracted.law result
  rw [added.others_eq y apart.symm operand] at difference
  have before := (machine.v x).toNat_lt
  have after := (second.v x).toNat_lt
  have carry : (first.v .flag).toNat ≤ 1 := added.flag_le
  have whole : (second.v .flag).toNat ≤ 1 := subtracted.flag_le
  refine ⟨subtracted.executed, UInt8.toNat_inj.mp ?_, ?_⟩ <;> omega

/-- A cycle that adds, subtracts, halves or doubles leaves a flag of one or zero that is the one of its
operands, and a result that satisfies the law of the operation, unless the flag register is its
destination. One that adds a byte, copies or combines bits leaves its result and changes no other
register. To add and then to subtract the same register gives the first operand back, with the other
flag. -/
theorem arithmetic_keeps_laws (machine : Machine) (x y : Register) :
    (∀ operation : Operation,
      machine.memory.WordAt machine.pc.toNat (.ofDigits 0x8 x y operation.digit) →
        Computes machine operation x y) ∧
    (∀ kk, machine.memory.WordAt machine.pc.toNat (.ofByte 0x7 x kk) →
      Puts machine (.ofByte 0x7 x kk) x (((machine.v x).toNat + kk.toNat) % 256)) ∧
    (machine.memory.WordAt machine.pc.toNat (.ofDigits 0x8 x y 0x0) →
      Puts machine (.ofDigits 0x8 x y 0x0) x (machine.v y).toNat) ∧
    (machine.memory.WordAt machine.pc.toNat (.ofDigits 0x8 x y 0x1) →
      Puts machine (.ofDigits 0x8 x y 0x1) x ((machine.v x).toNat ||| (machine.v y).toNat)) ∧
    (machine.memory.WordAt machine.pc.toNat (.ofDigits 0x8 x y 0x2) →
      Puts machine (.ofDigits 0x8 x y 0x2) x ((machine.v x).toNat &&& (machine.v y).toNat)) ∧
    (machine.memory.WordAt machine.pc.toNat (.ofDigits 0x8 x y 0x3) →
      Puts machine (.ofDigits 0x8 x y 0x3) x ((machine.v x).toNat ^^^ (machine.v y).toNat)) ∧
    (x ≠ y → x ≠ .flag → y ≠ .flag →
      machine.memory.WordAt machine.pc.toNat (.ofDigits 0x8 x y 0x4) →
      machine.memory.WordAt (machine.pc.toNat + 2) (.ofDigits 0x8 x y 0x5) →
        let first := machine.cycle.machine
        let second := first.cycle.machine
        first.cycle.result = .ok .executed ∧ second.v x = machine.v x ∧
          (second.v .flag).toNat = 1 - (first.v .flag).toNat) := by
  refine ⟨fun _ => computes, ?_, ?_, ?_, ?_, ?_, sub_of_add⟩
  · intro kk there
    rw [← UInt8.toNat_add]
    exact puts (.addByte x kk) there rfl
  · exact fun there => puts (.load x y) there rfl
  · intro there
    rw [← UInt8.toNat_or]
    exact puts (.or x y) there rfl
  · intro there
    rw [← UInt8.toNat_and]
    exact puts (.and x y) there rfl
  · intro there
    rw [← UInt8.toNat_xor]
    exact puts (.xor x y) there rfl

set_option maxRecDepth 8000 in
theorem arithmetic_keeps_laws_of_flag_destination :
    ∃ start : Machine, build .standard .zeroKeyed = .ok start ∧
      let program := [0x60, 0xC8, 0x6F, 0x64, 0x8F, 0x04, 0x61, 0x64, 0x80, 0x14, 0x80, 0x15]
      let machine := start.afterAll [.load program 0x200, .frame 2]
      let last := start.afterAll [.load program 0x200, .frame 4]
      let first := last.cycle.machine
      machine.memory.WordAt machine.pc.toNat (.ofDigits 0x8 Register.flag Register.zero 0x4) ∧
        Computes machine .add .flag .zero ∧ (machine.cycle.machine.v .flag).toNat = 1 ∧
        last.memory.WordAt last.pc.toNat (.ofDigits 0x8 Register.zero 1 0x4) ∧
        last.memory.WordAt (last.pc.toNat + 2) (.ofDigits 0x8 Register.zero 1 0x5) ∧
        first.cycle.machine.v .zero = 0xC8 ∧
        (first.cycle.machine.v .flag).toNat = 1 - (first.v .flag).toNat := by
  refine ⟨_, build_standard .zeroKeyed, ?_⟩
  intro program machine last first
  have seen : ((machine.memory.byte? machine.pc.toNat = some 0x8F ∧
        machine.memory.byte? (machine.pc.toNat + 1) = some 0x04) ∧
        machine.v .flag = 0x64 ∧ machine.v .zero = 0xC8) ∧
      (last.memory.byte? last.pc.toNat = some 0x80 ∧
        last.memory.byte? (last.pc.toNat + 1) = some 0x14) ∧
      (last.memory.byte? (last.pc.toNat + 2) = some 0x80 ∧
        last.memory.byte? (last.pc.toNat + 2 + 1) = some 0x15) ∧ last.v .zero = 0xC8 := by
    decide +kernel
  rcases seen with ⟨⟨⟨sumHigh, sumLow⟩, left, right⟩, ⟨addHigh, addLow⟩, ⟨subHigh, subLow⟩, kept⟩
  have sums : machine.memory.WordAt machine.pc.toNat
      (.ofDigits 0x8 Register.flag Register.zero Operation.add.digit) :=
    ⟨0x8F, 0x04, sumHigh, sumLow, rfl⟩
  have adds : last.memory.WordAt last.pc.toNat (.ofDigits 0x8 Register.zero 1 0x4) :=
    ⟨0x80, 0x14, addHigh, addLow, rfl⟩
  have subtracts : last.memory.WordAt (last.pc.toNat + 2) (.ofDigits 0x8 Register.zero 1 0x5) :=
    ⟨0x80, 0x15, subHigh, subLow, rfl⟩
  have computes : Computes machine .add .flag .zero :=
    (arithmetic_keeps_laws machine .flag .zero).1 .add sums
  rcases arithmetic_keeps_laws last .zero 1 with ⟨_, _, _, _, _, _, back⟩
  rcases back (by decide) (by decide) (by decide) adds subtracts with ⟨_, same, complement⟩
  refine ⟨sums, computes, ?_, adds, subtracts, same.trans kept, complement⟩
  rw [computes.flag_eq, left, right]
  rfl

end Machine

end Chip8
