import Chip8.Instruction.Basic

/-!
# Registers

The sixteen general registers, the index register and the two timers. The view of the general
registers is `get`; each operation below says what it does to it.
-/

namespace Chip8

/-- The registers of the machine. -/
structure Registers where
  /-- The contents of `V0` to `VF`. -/
  general : Vector UInt8 16
  /-- The index register, which points into memory. -/
  index : UInt16
  delay : UInt8
  sound : UInt8
  deriving DecidableEq, Repr

/-- The register with a number, if there is one. -/
def Register.ofNat? (number : Nat) : Option Register :=
  if inside : number < 16 then some ⟨number, inside⟩ else none

namespace Registers

def zero : Registers := ⟨Vector.replicate 16 0, 0, 0, 0⟩

def get (registers : Registers) (register : Register) : UInt8 :=
  registers.general[register.val]

def set (registers : Registers) (register : Register) (value : UInt8) : Registers :=
  { registers with general := registers.general.set register.val value }

def flag (registers : Registers) : UInt8 :=
  registers.get .flag

/-- Put one or zero into the flag register. -/
def setFlag (registers : Registers) (flag : Bool) : Registers :=
  registers.set .flag flag.toUInt8

/-- Put a result into a register and then its flag into the flag register, so that the flag stays
if both are the same register. -/
def setWithFlag (registers : Registers) (register : Register) (result : UInt8 × Bool) : Registers :=
  (registers.set register result.1).setFlag result.2

/-- The contents of `V0` up to a register. -/
def upTo (registers : Registers) (last : Register) : List UInt8 :=
  registers.general.toList.take (last.val + 1)

/-- Put bytes into the registers from `V0` on, as many as there are. -/
def setFirst (registers : Registers) (bytes : List UInt8) : Registers :=
  { registers with
    general := Vector.ofFn fun register => (bytes[register.val]?).getD (registers.get register) }

/-- One less, and zero if there is nothing left. -/
def countDown (timer : UInt8) : UInt8 :=
  if timer = 0 then 0 else timer - 1

def tick (registers : Registers) : Registers :=
  { registers with delay := countDown registers.delay, sound := countDown registers.sound }

/-! ## The view -/

@[ext] theorem ext {left right : Registers}
    (general : ∀ register, left.get register = right.get register)
    (index : left.index = right.index) (delay : left.delay = right.delay)
    (sound : left.sound = right.sound) : left = right := by
  cases left
  cases right
  simp only [get] at general
  simp only at index delay sound
  simp only [mk.injEq, index, delay, sound, and_self, and_true]
  exact Vector.ext fun register inside => general ⟨register, inside⟩

@[simp] theorem get_zero (register : Register) : zero.get register = 0 := by
  simp [zero, get]

@[simp] theorem get_set (registers : Registers) (register other : Register) (value : UInt8) :
    (registers.set register value).get other =
      if register = other then value else registers.get other := by
  simp [set, get, Vector.getElem_set, Fin.ext_iff]

@[simp] theorem get_setFlag (registers : Registers) (flag : Bool) (other : Register) :
    (registers.setFlag flag).get other =
      if Register.flag = other then flag.toUInt8 else registers.get other := by
  simp [setFlag]

@[simp] theorem get_setFirst (registers : Registers) (bytes : List UInt8) (register : Register) :
    (registers.setFirst bytes).get register =
      (bytes[register.val]?).getD (registers.get register) := by
  simp [setFirst, get]

@[simp] theorem length_upTo (registers : Registers) (last : Register) :
    (registers.upTo last).length = last.val + 1 := by
  simp only [upTo, List.length_take, Vector.length_toList]
  omega

theorem getElem?_upTo (registers : Registers) (last register : Register)
    (covered : register.val ≤ last.val) :
    (registers.upTo last)[register.val]? = some (registers.get register) := by
  have below : register.val < last.val + 1 := by omega
  simp [upTo, get, below]

theorem toNat_toUInt8 (flag : Bool) : flag.toUInt8.toNat = flag.toNat := by
  cases flag <;> rfl

theorem toNat_countDown (timer : UInt8) : (countDown timer).toNat = timer.toNat - 1 := by
  simp only [countDown]
  split
  next none => simp [none]
  next some =>
    have positive : timer.toNat ≠ 0 := fun zero => some (UInt8.toNat_inj.mp (by simpa using zero))
    rw [UInt8.toNat_sub_of_le]
    · rfl
    · rw [UInt8.le_iff_toNat_le]
      simp only [UInt8.toNat_one]
      omega

end Registers

end Chip8
