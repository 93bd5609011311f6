import Mathlib.Control.Monad.Basic
import Chip8.Proofs.Memory.Replay

/-!
# Registers that are stored and fetched back

One instruction stores the general registers up to one of them at the index register, and one fetches
them back from there. Both leave the index register alone and take the bytes in the same order, so what
was stored comes back: whatever happens in between, as long as the index register is the same again and
nothing was written to the bytes that are fetched. Fewer registers may be fetched than were stored.
-/

namespace Chip8

/-- Nothing is written at an address when every range that was written lies elsewhere. -/
theorem silent_of_apart {history : List Moment} {address : Nat}
    (apart : ∀ moment ∈ history, ∀ written ∈ moment.before.written? moment.act,
      address < written.1 ∨ written.1 + written.2.length ≤ address) :
    Silent (fun moment => moment.Writes address) history := by
  intro moment member value writes
  rcases Machine.writes_iff.mp writes with ⟨start, bytes, written, offset, given, rfl⟩
  have below : offset < bytes.length := (List.getElem?_eq_some_iff.mp given).1
  rcases apart moment member _ written with before | behind
  · exact absurd (Nat.le_add_right start offset) (Nat.not_le.mpr before)
  · exact absurd (Nat.le_of_add_le_add_left behind) (Nat.not_le.mpr below)

namespace Machine

/-- A cycle that fetches the registers up to one from memory: they are as they were in another machine,
and the registers above, the index register and memory are as they were before the cycle. -/
structure FetchesBack (saved machine : Machine) (last : Register) : Prop where
  executed : machine.cycle.result = .ok .executed
  restored : ∀ register ≤ last, machine.cycle.machine.v register = saved.v register
  others_eq : ∀ register > last, machine.cycle.machine.v register = machine.v register
  index_eq : machine.cycle.machine.registers.index = machine.registers.index
  memory_eq : machine.cycle.machine.memory = machine.memory

variable {machine saved : Machine} {x z : Register} {progress : Progress}

theorem cycle_of_store (there : machine.memory.WordAt machine.pc.toNat (.ofByte 0xF x 0x55))
    (met : machine.cycle.result = .ok progress) :
    machine.registers.index.toNat + (x.val + 1) ≤ Memory.size ∧
      machine.cycle.machine = { machine with
        opcode := .ofByte 0xF x 0x55
        pc := machine.pc + 2
        memory := machine.memory.write machine.registers.index.toNat (machine.registers.upTo x) } := by
  have stores := execute_of_word (.storeRegisters x) there met
  rcases bind_eq_ok_iff.mp stores with ⟨stored, found, done⟩
  rcases storeAtIndex_eq_ok_iff.mp found with ⟨inside, rfl⟩
  rw [Memory.Fits, Registers.length_upTo] at inside
  simp only [Machine.executed, Except.ok.injEq, Prod.mk.injEq] at done
  exact ⟨inside, done.2.symm⟩

theorem byte?_of_store (there : machine.memory.WordAt machine.pc.toNat (.ofByte 0xF x 0x55))
    (met : machine.cycle.result = .ok progress) {register : Register} (covered : register ≤ x) :
    machine.cycle.machine.memory.byte? (machine.registers.index.toNat + register.val) =
      some (machine.v register) := by
  rcases cycle_of_store there met with ⟨inside, after_eq⟩
  rw [← machine.registers.length_upTo x] at inside
  rw [after_eq]
  exact machine.memory.byte?_write_of_given inside
    (machine.registers.getElem?_upTo x register covered)

theorem byte?_of_store_elsewhere
    (there : machine.memory.WordAt machine.pc.toNat (.ofByte 0xF x 0x55))
    (met : machine.cycle.result = .ok progress) {address : Nat}
    (elsewhere : address < machine.registers.index.toNat ∨
      machine.registers.index.toNat + x.val < address) :
    machine.cycle.machine.memory.byte? address = machine.memory.byte? address := by
  rw [(cycle_of_store there met).2]
  apply machine.memory.byte?_write_of_ne
  intro offset below
  rw [Registers.length_upTo] at below
  omega

theorem cycle_of_fetch (there : machine.memory.WordAt machine.pc.toNat (.ofByte 0xF z 0x65))
    (inside : Memory.Fits machine.registers.index (z.val + 1)) :
    machine.cycle.result = .ok .executed ∧
      machine.cycle.machine = { machine with
        opcode := .ofByte 0xF z 0x65
        pc := machine.pc + 2
        registers := machine.registers.setFirst
          (machine.memory.read machine.registers.index.toNat (z.val + 1)) } := by
  apply cycle_of_word (.loadRegisters z) there
  exact bind_eq_ok_iff.mpr ⟨_, fetchRegisters_eq_ok_iff.mpr ⟨inside, rfl⟩, rfl⟩

/-- Registers whose bytes lie at the index register are fetched back. -/
theorem fetchesBack_of_bytes
    (there : machine.memory.WordAt machine.pc.toNat (.ofByte 0xF z 0x65))
    (shown : ∀ register ≤ z,
      machine.memory.byte? (machine.registers.index.toNat + register.val) =
        some (saved.v register)) : FetchesBack saved machine z := by
  have inside : machine.registers.index.toNat + (z.val + 1) ≤ Memory.size :=
    Memory.lt_size_of_byte? (shown z (Nat.le_refl z.val))
  rcases cycle_of_fetch there inside with ⟨executed, after_eq⟩
  exact
    { executed
      restored := by
        intro register covered
        have below : register.val < z.val + 1 := Nat.lt_succ_of_le covered
        rw [after_eq, v, Registers.get_setFirst,
          machine.memory.getElem?_read_of_inside inside below, shown register covered,
          Option.getD_some]
      others_eq := by
        intro register above
        have behind : (machine.memory.read machine.registers.index.toNat (z.val + 1)).length ≤
            register.val := by
          rw [Memory.length_read]
          exact above
        rw [after_eq, v, Registers.get_setFirst, List.getElem?_eq_none behind, Option.getD_none]
        rfl
      index_eq := by rw [after_eq, Registers.setFirst]
      memory_eq := by rw [after_eq] }

/-- A cycle that stores registers changes no register and no byte but those that it stores to. Whatever
requests follow, as soon as the index register is the same again, a cycle that fetches as many of the
registers or fewer fetches them back, unless something was written to one of their bytes since. -/
theorem stored_registers_return
    (there : machine.memory.WordAt machine.pc.toNat (.ofByte 0xF x 0x55))
    (met : machine.cycle.result = .ok progress) :
    let stored := machine.cycle.machine
    let start := machine.registers.index.toNat
    stored.registers = machine.registers ∧
      (∀ address, address < start ∨ start + x.val < address →
        stored.memory.byte? address = machine.memory.byte? address) ∧
      ∀ (requests : List Request), ∀ z ≤ x,
        let last := stored.afterAll requests
        last.registers.index = machine.registers.index →
          last.memory.WordAt last.pc.toNat (.ofByte 0xF z 0x65) →
          (∀ address, start ≤ address → address ≤ start + z.val →
            Silent (fun moment => moment.Writes address)
              (stored.moments (stored.actsAll requests))) →
          FetchesBack machine last z := by
  intro stored start
  have kept : stored.registers = machine.registers := by
    rw [show stored = _ from (cycle_of_store there met).2]
  refine ⟨kept, fun _ => byte?_of_store_elsewhere there met, ?_⟩
  intro requests z fewer last index fetches unwritten
  apply fetchesBack_of_bytes fetches
  intro register covered
  have saved := byte?_of_store there met (Nat.le_trans covered fewer)
  have quiet := unwritten (start + register.val) (Nat.le_add_right _ _)
    (Nat.add_le_add_left covered start)
  rw [index, show last = _ from (stored.afterActs_actsAll requests).symm, byte?_afterActs_iff]
  exact .inr ⟨quiet, saved⟩

set_option maxRecDepth 8000 in
theorem stored_registers_return_of_overwritten_third :
    ∃ start : Machine, build .standard .zeroKeyed = .ok start ∧
      let program := [0x60, 0x11, 0x61, 0x22, 0xA3, 0x00, 0xF2, 0x55, 0x60, 0x00, 0xF1, 0x65]
      let machine := start.afterAll [.load program 0x200, .frame 3]
      let requests := [.frame 1, .load [7, 7] 0x302]
      let last := machine.cycle.machine.afterAll requests
      machine.memory.WordAt machine.pc.toNat (.ofByte 0xF 2 0x55) ∧
        machine.cycle.result = .ok .executed ∧
        last.memory.WordAt last.pc.toNat (.ofByte 0xF 1 0x65) ∧
        last.v 0 = 0 ∧ last.cycle.machine.v 0 = 0x11 ∧ last.cycle.machine.v 1 = 0x22 := by
  have built := build_standard .zeroKeyed
  refine ⟨_, built, ?_⟩
  intro program machine requests last
  have seen :
      (machine.memory.byte? machine.pc.toNat = some 0xF2 ∧
        machine.memory.byte? (machine.pc.toNat + 1) = some 0x55) ∧
      (machine.cycle.result = .ok .executed ∧ machine.registers.index.toNat = 0x300 ∧
        machine.v 0 = 0x11 ∧ machine.v 1 = 0x22) ∧
      (last.memory.byte? last.pc.toNat = some 0xF1 ∧
        last.memory.byte? (last.pc.toNat + 1) = some 0x65) ∧
      (last.registers.index = machine.registers.index ∧ last.v 0 = 0) ∧
      ∀ moment ∈ machine.cycle.machine.moments (machine.cycle.machine.actsAll requests),
        ∀ written ∈ moment.before.written? moment.act, 0x302 ≤ written.1 := by
    decide +kernel
  rcases seen with ⟨⟨storeHigh, storeLow⟩, ⟨met, index, first, second⟩, ⟨fetchHigh, fetchLow⟩,
    ⟨same, lost⟩, writes⟩
  have stores : machine.memory.WordAt machine.pc.toNat (.ofByte 0xF 2 0x55) :=
    ⟨0xF2, 0x55, storeHigh, storeLow, rfl⟩
  have fetches : last.memory.WordAt last.pc.toNat (.ofByte 0xF 1 0x65) :=
    ⟨0xF1, 0x65, fetchHigh, fetchLow, rfl⟩
  rcases stored_registers_return stores met with ⟨_, _, returns⟩
  have back : FetchesBack machine last 1 := by
    apply returns requests 1 (by decide) same fetches
    intro address _ covered
    rw [index] at covered
    apply silent_of_apart
    intro moment member written put
    exact .inl (Nat.lt_of_lt_of_le (Nat.lt_succ_of_le covered) (writes moment member written put))
  exact ⟨stores, met, fetches, lost, (back.restored 0 (by decide)).trans first,
    (back.restored 1 (by decide)).trans second⟩

end Machine

end Chip8
