import Mathlib.Control.Monad.Basic
import Chip8.Proofs.Memory.Replay
import Chip8.Proofs.Memory.Words
import Chip8.Proofs.Runs.Latest

/-!
# Memory as a bounded map

Memory is reached by requests of six kinds: three of them put bytes into it, by a list, by a single
byte or by filling a range, and three read a byte, a range or an opcode. All six agree on what a range
is, on when it lies in memory and on the fault if it does not. So memory is a map of 4096 cells: after
any edits each cell holds what the latest edit that was met put there, whichever way it is read.
-/

namespace Chip8.Memory

/-- A request to put bytes into memory. -/
inductive Edit where
  | load (bytes : List UInt8) (start : UInt16)
  | set (address : UInt16) (value : UInt8)
  | fill (start : UInt16) (count : Nat) (value : UInt8)
  deriving DecidableEq, Repr

namespace Edit

def start : Edit → UInt16
  | load _ start => start
  | set address _ => address
  | fill start _ _ => start

def bytes : Edit → List UInt8
  | load bytes _ => bytes
  | set _ value => [value]
  | fill _ count value => List.replicate count value

end Edit

def edit (memory : Memory) : Edit → Except Fault Memory
  | .load bytes start => memory.load bytes start
  | .set address value => memory.set address value
  | .fill start count value => memory.fill start count value

/-- The memory after an edit, which is as it was if the edit is refused. -/
def afterEdit (memory : Memory) (edit : Edit) : Memory :=
  match memory.edit edit with
  | .ok after => after
  | .error _ => memory

/-- The memory after edits one after the other. -/
def afterEdits (memory : Memory) (edits : List Edit) : Memory :=
  edits.foldl afterEdit memory

/-- An edit whose bytes all lie in memory puts one of them at an address. -/
def PutBy (address : Nat) (edit : Edit) (value : UInt8) : Prop :=
  edit.start.toNat + edit.bytes.length ≤ 4096 ∧
    ∃ offset, edit.bytes[offset]? = some value ∧ address = edit.start.toNat + offset

variable {memory : Memory} {edit : Edit} {fault : Fault} {address : Nat} {value : UInt8}

/-! ## Edits -/

/-- Every edit writes its bytes if they all lie in memory, and is refused otherwise. -/
theorem edit_eq (memory : Memory) (edit : Edit) :
    memory.edit edit =
      if Fits edit.start edit.bytes.length then .ok (memory.write edit.start.toNat edit.bytes)
      else .error (rangeFault edit.start edit.bytes.length) := by
  cases edit with
  | load bytes start => rfl
  | set address value => rfl
  | fill start count value =>
      simp only [Memory.edit, fill, Edit.start, Edit.bytes, List.length_replicate]

theorem exists_edit_eq_ok_iff :
    (∃ after, memory.edit edit = .ok after) ↔
      edit.start.toNat + edit.bytes.length ≤ 4096 := by
  rw [edit_eq]
  split
  next inside => exact iff_of_true ⟨_, rfl⟩ inside
  next outside => exact iff_of_false nofun outside

theorem edit_eq_error_iff :
    memory.edit edit = .error fault ↔
      4096 < edit.start.toNat + edit.bytes.length ∧
        fault = .outOfBounds (edit.start.toNat + (edit.bytes.length - 1)) := by
  rw [edit_eq]
  split
  next inside => exact iff_of_false nofun fun refused => absurd inside (Nat.not_le.mpr refused.1)
  next outside =>
    have past := Nat.not_le.mp outside
    simp only [Except.error.injEq, rangeFault, eq_comm (b := fault), iff_and_self]
    exact fun _ => past

theorem afterEdit_of_inside (inside : edit.start.toNat + edit.bytes.length ≤ 4096) :
    memory.afterEdit edit = memory.write edit.start.toNat edit.bytes := by
  have met : memory.edit edit = .ok (memory.write edit.start.toNat edit.bytes) := by
    rw [edit_eq]
    exact if_pos inside
  rw [afterEdit, met]

theorem afterEdit_of_error (refused : memory.edit edit = .error fault) :
    memory.afterEdit edit = memory := by
  rw [afterEdit, refused]

theorem byte?_afterEdit_of_putBy (memory : Memory) (put : PutBy address edit value) :
    (memory.afterEdit edit).byte? address = some value := by
  rcases put with ⟨inside, offset, given, rfl⟩
  rw [afterEdit_of_inside inside]
  exact memory.byte?_write_of_given inside given

theorem byte?_afterEdit_of_quiet (memory : Memory) (quiet : ∀ value, ¬ PutBy address edit value) :
    (memory.afterEdit edit).byte? address = memory.byte? address := by
  by_cases inside : edit.start.toNat + edit.bytes.length ≤ 4096
  · rw [afterEdit_of_inside inside]
    apply byte?_write_of_ne
    intro offset below same
    exact quiet _ ⟨inside, offset, List.getElem?_eq_getElem below, same⟩
  · have refused : memory.edit edit = .error _ :=
      edit_eq_error_iff.mpr ⟨Nat.not_le.mp inside, rfl⟩
    rw [afterEdit_of_error refused]

/-- After edits a byte is as the latest of them that put one there put it, and as it was before if
there is none. -/
theorem byte?_afterEdits_iff (memory : Memory) (edits : List Edit) :
    (memory.afterEdits edits).byte? address = some value ↔
      (∃ since, Latest (PutBy address) edits value since) ∨
        Silent (PutBy address) edits ∧ memory.byte? address = some value :=
  foldl_eq_some_iff afterEdit (·.byte? address)
    (fun before _ _ put => before.byte?_afterEdit_of_putBy put)
    (fun before _ quiet => before.byte?_afterEdit_of_quiet quiet) memory edits

/-- After edits of a blank memory the byte at an address is the latest one that was put there, or
zero. -/
theorem byteAt_afterEdits_eq_ok_iff (edits : List Edit) {address : UInt16} :
    (blank.afterEdits edits).byteAt address = .ok value ↔
      address.toNat < 4096 ∧
        ((∃ since, Latest (PutBy address.toNat) edits value since) ∨
          Silent (PutBy address.toNat) edits ∧ value = 0) := by
  rw [byteAt_eq_ok_iff]
  by_cases inside : address.toNat < 4096
  · rw [byte?_afterEdits_iff, byte?_blank, if_pos inside, Option.some.injEq, eq_comm (a := 0)]
    exact (and_iff_right inside).symm
  · rw [byte?_eq_none _ (Nat.le_of_not_lt inside)]
    exact iff_of_false nofun fun shown => inside shown.1

/-! ## Reads -/

theorem exists_byte? (memory : Memory) (inside : address < size) :
    ∃ byte, memory.byte? address = some byte :=
  ⟨_, Vector.getElem?_eq_getElem inside⟩

theorem slice_eq_ok_iff_bytes {start : UInt16} {count : Nat} {bytes : List UInt8} :
    memory.slice start count = .ok bytes ↔
      start.toNat + count ≤ 4096 ∧ bytes.length = count ∧
        ∀ offset < count, memory.byte? (start.toNat + offset) = bytes[offset]? := by
  rw [slice_eq_ok_iff]
  constructor
  · rintro ⟨inside, rfl⟩
    refine ⟨inside, memory.length_read _ _, ?_⟩
    intro offset below
    exact (memory.getElem?_read_of_inside inside below).symm
  · rintro ⟨inside, whole, shown⟩
    refine ⟨inside, List.ext_getElem? fun offset => ?_⟩
    rw [getElem?_read]
    split
    next below =>
      have given : offset < bytes.length := Nat.lt_of_lt_of_eq below whole.symm
      rw [shown offset below, List.getElem?_eq_getElem given, Option.getD_some]
    next past =>
      apply List.getElem?_eq_none
      rw [whole]
      exact Nat.le_of_not_lt past

theorem set_eq_load (memory : Memory) (address : UInt16) (value : UInt8) :
    memory.set address value = memory.load [value] address :=
  memory.edit_eq (.set address value)

theorem slice_one (memory : Memory) (address : UInt16) :
    memory.slice address 1 = (memory.byteAt address).map fun byte => [byte] := by
  cases found : memory.byteAt address with
  | ok byte =>
      have shown := byteAt_eq_ok_iff.mp found
      apply slice_eq_ok_iff_bytes.mpr
      refine ⟨lt_size_of_byte? shown, rfl, ?_⟩
      intro offset below
      rw [Nat.lt_one_iff.mp below]
      exact shown
  | error fault =>
      rcases byteAt_eq_error_iff.mp found with ⟨outside, rfl⟩
      exact slice_eq_error_iff.mpr ⟨Nat.not_le.mpr (Nat.lt_succ_of_le outside), rfl⟩

theorem exists_slice_eq_ok_iff {start : UInt16} {count : Nat} :
    (∃ bytes, memory.slice start count = .ok bytes) ↔ start.toNat + count ≤ 4096 := by
  constructor
  · rintro ⟨bytes, sliced⟩
    exact (slice_eq_ok_iff.mp sliced).1
  · intro inside
    exact ⟨_, slice_eq_ok_iff.mpr ⟨inside, rfl⟩⟩

theorem byteAt_of_slice {start place : UInt16} {count offset : Nat} {bytes : List UInt8}
    (sliced : memory.slice start count = .ok bytes) (below : offset < count)
    (placed : place.toNat = start.toNat + offset) :
    ∃ byte, bytes[offset]? = some byte ∧ memory.byteAt place = .ok byte := by
  rcases slice_eq_ok_iff_bytes.mp sliced with ⟨_, whole, shown⟩
  have given : offset < bytes.length := Nat.lt_of_lt_of_eq below whole.symm
  refine ⟨bytes[offset], List.getElem?_eq_getElem given, ?_⟩
  rw [byteAt_eq_ok_iff, placed, shown offset below]
  exact List.getElem?_eq_getElem given

/-- The two bytes of an opcode lie one behind the other. -/
theorem byteAt_of_opcodeAt {address : UInt16} {word : Opcode}
    (found : memory.opcodeAt address = .ok word) :
    ∃ high low, memory.byteAt address = .ok high ∧ memory.byteAt (address + 1) = .ok low ∧
      (address + 1).toNat = address.toNat + 1 ∧ word.toNat = 256 * high.toNat + low.toNat := by
  rcases opcodeAt_eq_ok_iff_wordAt.mp found with ⟨high, low, highAt, lowAt, value⟩
  have next := toNat_succ (lt_size_of_byte? highAt)
  rw [← next] at lowAt
  exact ⟨high, low, byteAt_eq_ok_iff.mpr highAt, byteAt_eq_ok_iff.mpr lowAt, next,
    value.trans (by rw [Nat.mul_comm])⟩

theorem exists_opcodeAt_eq_ok_iff {address : UInt16} :
    (∃ word, memory.opcodeAt address = .ok word) ↔ address.toNat ≤ 0xFFE := by
  constructor
  · rintro ⟨word, found⟩
    rcases byteAt_of_opcodeAt found with ⟨_, _, _, lowAt, next, _⟩
    have inside := lt_size_of_byte? (byteAt_eq_ok_iff.mp lowAt)
    rw [next] at inside
    exact Nat.le_of_lt_succ (Nat.lt_of_succ_lt_succ inside)
  · intro inside
    rcases memory.exists_byte? (Nat.lt_of_le_of_lt inside (by decide)) with ⟨high, highAt⟩
    rcases memory.exists_byte? (Nat.lt_of_le_of_lt (Nat.succ_le_succ inside) (by decide)) with
      ⟨low, lowAt⟩
    exact ⟨_, opcodeAt_eq_ok_iff.mpr ⟨high, low, highAt, lowAt, rfl⟩⟩

/-- An edit is met exactly where all of its bytes lie in memory, and one that is refused names the
last of them and changes nothing. After any edits of a blank memory the byte at an address is as the
latest of them that was met put it, or zero if none did, and it is refused exactly past the end. In
every memory the ways to reach a byte agree: a slice is the bytes of its range, one by one, to set a
byte is to load it, to read it is to slice it, and an opcode is the byte at its address and the one
behind it, which is never the first of memory. -/
theorem accesses_agree :
    (∀ (memory : Memory) (edit : Edit),
      let count := edit.bytes.length
      ((∃ after, memory.edit edit = .ok after) ↔ edit.start.toNat + count ≤ 4096) ∧
        (∀ fault, memory.edit edit = .error fault ↔
          4096 < edit.start.toNat + count ∧
            fault = .outOfBounds (edit.start.toNat + (count - 1))) ∧
        (4096 < edit.start.toNat + count → memory.afterEdit edit = memory)) ∧
    (∀ (edits : List Edit) (address : UInt16),
      let memory := blank.afterEdits edits
      (∀ value, memory.byteAt address = .ok value ↔
        address.toNat < 4096 ∧
          ((∃ since, Latest (PutBy address.toNat) edits value since) ∨
            Silent (PutBy address.toNat) edits ∧ value = 0)) ∧
        ∀ fault, memory.byteAt address = .error fault ↔
          4096 ≤ address.toNat ∧ fault = .outOfBounds address.toNat) ∧
    ∀ memory : Memory,
      (∀ start count,
        ((∃ bytes, memory.slice start count = .ok bytes) ↔ start.toNat + count ≤ 4096) ∧
          ∀ bytes, memory.slice start count = .ok bytes →
            bytes.length = count ∧
              ∀ offset < count, ∀ place : UInt16, place.toNat = start.toNat + offset →
                ∃ byte, bytes[offset]? = some byte ∧ memory.byteAt place = .ok byte) ∧
      (∀ address value, memory.set address value = memory.load [value] address) ∧
      (∀ address, memory.slice address 1 = (memory.byteAt address).map fun byte => [byte]) ∧
      ∀ address,
        ((∃ word, memory.opcodeAt address = .ok word) ↔ address.toNat ≤ 0xFFE) ∧
          ∀ word, memory.opcodeAt address = .ok word →
            ∃ high low, memory.byteAt address = .ok high ∧
              memory.byteAt (address + 1) = .ok low ∧
              (address + 1).toNat = address.toNat + 1 ∧
              word.toNat = 256 * high.toNat + low.toNat := by
  refine ⟨?_, ?_, ?_⟩
  · intro memory edit count
    refine ⟨exists_edit_eq_ok_iff, fun _ => edit_eq_error_iff, ?_⟩
    intro past
    have refused : memory.edit edit = .error _ := edit_eq_error_iff.mpr ⟨past, rfl⟩
    exact afterEdit_of_error refused
  · intro edits address memory
    exact ⟨fun _ => byteAt_afterEdits_eq_ok_iff edits, fun _ => byteAt_eq_error_iff⟩
  · intro memory
    refine ⟨?_, memory.set_eq_load, memory.slice_one, ?_⟩
    · intro start count
      refine ⟨exists_slice_eq_ok_iff, ?_⟩
      intro bytes sliced
      refine ⟨(slice_eq_ok_iff_bytes.mp sliced).2.1, ?_⟩
      intro offset below place placed
      exact byteAt_of_slice sliced below placed
    · intro address
      exact ⟨exists_opcodeAt_eq_ok_iff, fun _ => byteAt_of_opcodeAt⟩

theorem accesses_agree_of_last_bytes :
    let edits : List Edit := [.fill 0xFFC 4 7, .load [1, 2, 3] 0xFFE, .set 0xFFF 9, .load [] 0x1000]
    let memory := blank.afterEdits edits
    memory.byteAt 0xFFF = .ok 9 ∧
      memory.edit (.load [1, 2, 3] 0xFFE) = .error (.outOfBounds 0x1000) ∧
      memory.afterEdit (.load [1, 2, 3] 0xFFE) = memory ∧
      memory.slice 0xFFC 4 = .ok [7, 7, 7, 9] ∧
      memory.byteAt 0xFFE = .ok 7 ∧
      memory.opcodeAt 0xFFE = .ok 0x0709 ∧
      ∃ high low, memory.byteAt 0xFFE = .ok high ∧ memory.byteAt 0xFFF = .ok low ∧
        256 * high.toNat + low.toNat = 0x0709 := by
  intro edits memory
  rcases accesses_agree with ⟨met, shown, read⟩
  have silent : Silent (PutBy 0xFFF) [.load [] 0x1000] := by
    intro entry member value put
    cases List.mem_singleton.mp member
    rcases put with ⟨_, offset, given, _⟩
    cases given
  have latest : Latest (PutBy 0xFFF) edits 9 [.load [] 0x1000] :=
    ⟨[.fill 0xFFC 4 7, .load [1, 2, 3] 0xFFE], .set 0xFFF 9, rfl, ⟨by decide, 0, rfl, rfl⟩, silent⟩
  have last : memory.byteAt 0xFFF = .ok 9 :=
    ((shown edits 0xFFF).1 9).mpr ⟨by decide, .inl ⟨_, latest⟩⟩
  rcases met memory (.load [1, 2, 3] 0xFFE) with ⟨_, refused, kept⟩
  have seen : memory.slice 0xFFC 4 = .ok [7, 7, 7, 9] ∧ memory.opcodeAt 0xFFE = .ok 0x0709 := by
    decide +kernel
  rcases seen with ⟨sliced, fetched⟩
  rcases read memory with ⟨slices, _, _, opcodes⟩
  rcases (slices 0xFFC 4).2 _ sliced with ⟨_, bytes⟩
  rcases bytes 2 (by decide) 0xFFE rfl with ⟨byte, given, there⟩
  cases given
  rcases (opcodes 0xFFE).2 _ fetched with ⟨high, low, highAt, lowAt, _, value⟩
  exact ⟨last, (refused _).mpr ⟨by decide, rfl⟩, kept (by decide), sliced, there, fetched, high, low,
    highAt, lowAt, value.symm⟩

end Chip8.Memory
