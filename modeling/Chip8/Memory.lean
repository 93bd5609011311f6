import Chip8.Fault
import Chip8.Opcode

/-!
# Memory

Four thousand and ninety-six bytes. Requests name a start and a number of bytes; a request is met
when the whole range lies in memory and refused otherwise, and a refused request changes nothing.

The view of a memory is `byte?`, the byte at an address, which is absent past the end. `byte?_write`
says what a write does to it: the written range shows the written bytes and all else is as before.
-/

namespace Chip8

/-- Memory, one byte for each address. -/
structure Memory where
  cells : Vector UInt8 Memory.size
  deriving DecidableEq

namespace Memory

def blank : Memory := ⟨Vector.replicate size 0⟩

/-- The byte at an address, if the address lies in memory. -/
def byte? (memory : Memory) (address : Nat) : Option UInt8 :=
  memory.cells[address]?

/-- The memory with bytes put one after the other from `start` on; what would lie past the end is
dropped. -/
def write (memory : Memory) (start : Nat) : List UInt8 → Memory
  | [] => memory
  | byte :: rest => write ⟨memory.cells.setIfInBounds start byte⟩ (start + 1) rest

/-- The `count` bytes from `start` on; what lies past the end counts as zero. -/
def read (memory : Memory) (start count : Nat) : List UInt8 :=
  (List.range' start count).map fun address => (memory.byte? address).getD 0

/-- The `count` bytes from `start` on all lie in memory. -/
def Fits (start : UInt16) (count : Nat) : Prop :=
  start.toNat + count ≤ size

instance (start : UInt16) (count : Nat) : Decidable (Fits start count) :=
  inferInstanceAs (Decidable (start.toNat + count ≤ size))

/-- The fault of a range that does not fit names its last byte, or its start if it is empty. -/
def rangeFault (start : UInt16) (count : Nat) : Fault :=
  .outOfBounds (start.toNat + (count - 1))

def byteAt (memory : Memory) (address : UInt16) : Except Fault UInt8 :=
  match memory.byte? address.toNat with
  | some byte => .ok byte
  | none => .error (.outOfBounds address.toNat)

/-- The opcode at an address: the byte there, then the byte behind it. -/
def opcodeAt (memory : Memory) (address : UInt16) : Except Fault Opcode := do
  let high ← memory.byteAt address
  let low ← memory.byteAt (address + 1)
  return .ofBytes high low

/-- The `count` bytes from `start` on. The sum of both is formed without a bound: from 2 to the power of
64 on it fits no machine word, and a program that checks its sums stops there where this refuses. No
instruction counts farther than to sixteen. -/
def slice (memory : Memory) (start : UInt16) (count : Nat) : Except Fault (List UInt8) :=
  if Fits start count then .ok (memory.read start.toNat count)
  else .error (rangeFault start count)

def set (memory : Memory) (address : UInt16) (value : UInt8) : Except Fault Memory :=
  if address.toNat < size then .ok (memory.write address.toNat [value])
  else .error (.outOfBounds address.toNat)

/-- Put bytes one after the other from `start` on. -/
def load (memory : Memory) (bytes : List UInt8) (start : UInt16) : Except Fault Memory :=
  if Fits start bytes.length then .ok (memory.write start.toNat bytes)
  else .error (rangeFault start bytes.length)

/-- Replace each of the `count` bytes from `start` on by one value. -/
def fill (memory : Memory) (start : UInt16) (count : Nat) (value : UInt8) : Except Fault Memory :=
  if Fits start count then .ok (memory.write start.toNat (List.replicate count value))
  else .error (rangeFault start count)

/-! ## The view -/

@[ext] theorem ext {left right : Memory}
    (same : ∀ address, left.byte? address = right.byte? address) : left = right := by
  cases left
  cases right
  simp only [byte?] at same
  simp only [mk.injEq]
  exact Vector.ext fun address inside => by simpa [inside] using same address

@[simp] theorem byte?_blank (address : Nat) :
    blank.byte? address = if address < size then some 0 else none := by
  simp [blank, byte?, Vector.getElem?_replicate]

theorem lt_size_of_byte? {memory : Memory} {address : Nat} {byte : UInt8}
    (found : memory.byte? address = some byte) : address < size := by
  obtain ⟨inside, _⟩ := Vector.getElem?_eq_some_iff.mp found
  exact inside

theorem byte?_eq_none (memory : Memory) {address : Nat} (outside : size ≤ address) :
    memory.byte? address = none := by
  simp [byte?, outside]

/-- After a write the written range shows the written bytes and all else is as before. -/
theorem byte?_write (memory : Memory) (start : Nat) (bytes : List UInt8) (address : Nat) :
    (memory.write start bytes).byte? address =
      if start ≤ address ∧ address < start + bytes.length ∧ address < size
      then bytes[address - start]? else memory.byte? address := by
  induction bytes generalizing memory start with
  | nil => grind [write]
  | cons byte rest ih =>
      rw [write, ih]
      simp only [byte?, Vector.getElem?_setIfInBounds, List.length_cons]
      grind

@[simp] theorem length_read (memory : Memory) (start count : Nat) :
    (memory.read start count).length = count := by
  simp [read]

theorem getElem?_read (memory : Memory) (start count offset : Nat) :
    (memory.read start count)[offset]? =
      if offset < count then some ((memory.byte? (start + offset)).getD 0) else none := by
  simp only [read, List.getElem?_map]
  split <;> simp_all

theorem getElem?_read_of_inside (memory : Memory) {start count offset : Nat}
    (inside : start + count ≤ size) (below : offset < count) :
    (memory.read start count)[offset]? = memory.byte? (start + offset) := by
  have there : start + offset < size := by omega
  rw [getElem?_read, if_pos below, byte?, Vector.getElem?_eq_getElem there, Option.getD_some]

/-- The address behind one that lies in memory does not wrap around. -/
theorem toNat_succ {address : UInt16} (inside : address.toNat < size) :
    (address + 1).toNat = address.toNat + 1 := by
  simp only [size] at inside
  simp only [UInt16.toNat_add, UInt16.toNat_one]
  omega

/-! ## Requests -/

theorem byteAt_eq_ok_iff {memory : Memory} {address : UInt16} {byte : UInt8} :
    memory.byteAt address = .ok byte ↔ memory.byte? address.toNat = some byte := by
  simp only [byteAt]
  split
  next found => simp [found]
  next missing => simp [missing]

theorem byteAt_eq_error_iff {memory : Memory} {address : UInt16} {fault : Fault} :
    memory.byteAt address = .error fault ↔
      size ≤ address.toNat ∧ fault = .outOfBounds address.toNat := by
  simp only [byteAt]
  split
  next byte found =>
    simp [Nat.not_le.mpr (lt_size_of_byte? found)]
  next missing =>
    have outside : size ≤ address.toNat := Vector.getElem?_eq_none_iff.mp missing
    simp [outside, eq_comm]

/-- An opcode is read where two bytes lie one behind the other, and is made of them. -/
theorem opcodeAt_eq_ok_iff {memory : Memory} {address : UInt16} {opcode : Opcode} :
    memory.opcodeAt address = .ok opcode ↔
      ∃ high low, memory.byte? address.toNat = some high ∧
        memory.byte? (address.toNat + 1) = some low ∧ opcode = .ofBytes high low := by
  constructor
  · intro found
    cases first : memory.byteAt address with
    | error fault => simp [opcodeAt, first, bind, Except.bind] at found
    | ok high =>
        cases second : memory.byteAt (address + 1) with
        | error fault => simp [opcodeAt, first, second, bind, Except.bind] at found
        | ok low =>
            have highAt := byteAt_eq_ok_iff.mp first
            have lowAt := byteAt_eq_ok_iff.mp second
            rw [toNat_succ (lt_size_of_byte? highAt)] at lowAt
            simp only [opcodeAt, first, second, bind, Except.bind, pure, Except.pure,
              Except.ok.injEq] at found
            exact ⟨high, low, highAt, lowAt, found.symm⟩
  · rintro ⟨high, low, highAt, lowAt, rfl⟩
    rw [← toNat_succ (lt_size_of_byte? highAt)] at lowAt
    simp [opcodeAt, byteAt_eq_ok_iff.mpr highAt, byteAt_eq_ok_iff.mpr lowAt, bind, Except.bind,
      pure, Except.pure]

/-- An opcode cannot be read at the last byte or past it. -/
theorem opcodeAt_eq_error_iff {memory : Memory} {address : UInt16} {fault : Fault} :
    memory.opcodeAt address = .error fault ↔
      size ≤ address.toNat + 1 ∧ fault = .outOfBounds (max address.toNat size) := by
  cases first : memory.byteAt address with
  | error refusal =>
      obtain ⟨outside, rfl⟩ := byteAt_eq_error_iff.mp first
      have past : size ≤ address.toNat + 1 := by omega
      simp [opcodeAt, first, bind, Except.bind, past, Nat.max_eq_left outside, eq_comm]
  | ok high =>
      have inside : address.toNat < size := lt_size_of_byte? (byteAt_eq_ok_iff.mp first)
      cases second : memory.byteAt (address + 1) with
      | error refusal =>
          obtain ⟨outside, rfl⟩ := byteAt_eq_error_iff.mp second
          rw [toNat_succ inside] at outside second
          have last : max address.toNat size = address.toNat + 1 := by omega
          simp [opcodeAt, first, second, bind, Except.bind, outside, last, eq_comm]
      | ok low =>
          have lowAt := byteAt_eq_ok_iff.mp second
          rw [toNat_succ inside] at lowAt
          have room : address.toNat + 1 < size := lt_size_of_byte? lowAt
          simp [opcodeAt, first, second, bind, Except.bind, pure, Except.pure, Nat.not_le.mpr room]

theorem slice_eq_ok_iff {memory : Memory} {start : UInt16} {count : Nat} {bytes : List UInt8} :
    memory.slice start count = .ok bytes ↔
      Fits start count ∧ bytes = memory.read start.toNat count := by
  simp only [slice]
  split
  next fits => simp [fits, eq_comm]
  next outside => simp [outside]

theorem slice_eq_error_iff {memory : Memory} {start : UInt16} {count : Nat} {fault : Fault} :
    memory.slice start count = .error fault ↔
      ¬ Fits start count ∧ fault = rangeFault start count := by
  simp only [slice]
  split
  next fits => simp [fits]
  next outside => simp [outside, eq_comm]

theorem load_eq_ok_iff {memory after : Memory} {bytes : List UInt8} {start : UInt16} :
    memory.load bytes start = .ok after ↔
      Fits start bytes.length ∧ after = memory.write start.toNat bytes := by
  simp only [load]
  split
  next fits => simp [fits, eq_comm]
  next outside => simp [outside]

theorem load_eq_error_iff {memory : Memory} {bytes : List UInt8} {start : UInt16} {fault : Fault} :
    memory.load bytes start = .error fault ↔
      ¬ Fits start bytes.length ∧ fault = rangeFault start bytes.length := by
  simp only [load]
  split
  next fits => simp [fits]
  next outside => simp [outside, eq_comm]

end Memory

end Chip8
