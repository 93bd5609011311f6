import Chip8.Proofs.Machine.Cycles
import Chip8.Proofs.Runs.Acts
import Chip8.Proofs.Runs.Latest

/-!
# Memory is the replay of its writers

Only four things put bytes into memory: a rom, a load of the host, and the two instructions that
store registers or decimal digits, each only when it is met. `Writes` says which byte each of them
puts where. After any requests an address shows the byte that the last of its writers put there, and
what building put there if it has had none.
-/

namespace Chip8

/-- Three decimal digits with the value of a byte. -/
structure Decimal (byte hundreds tens units : UInt8) : Prop where
  hundreds_le : hundreds.toNat ≤ 9
  tens_le : tens.toNat ≤ 9
  units_le : units.toNat ≤ 9
  value_eq : 100 * hundreds.toNat + 10 * tens.toNat + units.toNat = byte.toNat

theorem decimal_iff {byte hundreds tens units : UInt8} :
    Decimal byte hundreds tens units ↔
      [hundreds, tens, units] = Arithmetic.decimalDigits byte := by
  rw [← List.map_inj_right fun _ _ => UInt8.toNat_inj.mp, Arithmetic.toNat_decimalDigits]
  simp only [List.map_cons, List.map_nil, List.cons.injEq, and_true]
  have bound := byte.toNat_lt
  constructor
  · intro decimal
    rcases decimal with ⟨hundredsBound, tensBound, unitsBound, value⟩
    omega
  · intro digits
    rcases digits with ⟨hundreds, tens, units⟩
    constructor <;> omega

/-- The byte that building puts at an address: that of the font where the font lies, and zero
elsewhere. -/
def Config.firstByte (config : Config) (address : Nat) : UInt8 :=
  if config.fontStart.toNat ≤ address ∧ address < config.fontStart.toNat + 80 then
    Font.bytes.getD (address - config.fontStart.toNat) 0
  else 0

namespace Memory

variable {start offset : Nat} {bytes : List UInt8} {value : UInt8}

/-- Bytes that are written where they fit are read back. -/
theorem byte?_write_of_given (memory : Memory) (inside : start + bytes.length ≤ size)
    (given : bytes[offset]? = some value) :
    (memory.write start bytes).byte? (start + offset) = some value := by
  have below := (List.getElem?_eq_some_iff.mp given).1
  rw [byte?_write, if_pos ⟨Nat.le_add_right _ _, Nat.add_lt_add_left below _,
    Nat.lt_of_lt_of_le (Nat.add_lt_add_left below _) inside⟩, Nat.add_sub_cancel_left]
  exact given

theorem byte?_write_of_ne (memory : Memory) {address : Nat}
    (elsewhere : ∀ offset < bytes.length, address ≠ start + offset) :
    (memory.write start bytes).byte? address = memory.byte? address := by
  rw [byte?_write]
  apply if_neg
  intro covered
  rcases covered with ⟨above, below, _⟩
  exact elsewhere (address - start) (by omega) (Nat.add_sub_cancel' above).symm

end Memory

namespace Machine

/-- The bytes that acts put at addresses: which act puts which byte at which address. -/
inductive Writes (machine : Machine) : Act → Nat → UInt8 → Prop where
  /-- A rom that is met puts its bytes where programs start. -/
  | rom {rom : Rom} {offset : Nat} {value : UInt8} {answer : Answer}
      (met : (machine.perform (.loadRom rom)).result = .ok answer)
      (given : rom.bytes[offset]? = some value) :
      Writes machine (.loadRom rom) (machine.config.programStart.toNat + offset) value
  /-- A load that is met puts its bytes where it starts. -/
  | load {bytes : List UInt8} {start : UInt16} {offset : Nat} {value : UInt8} {answer : Answer}
      (met : (machine.perform (.load bytes start)).result = .ok answer)
      (given : bytes[offset]? = some value) :
      Writes machine (.load bytes start) (start.toNat + offset) value
  /-- `Fx55` puts `V0` to `Vx` at the index register. -/
  | registers {x register : Register} (met : machine.succeeds? = some (.storeRegisters x))
      (covered : register ≤ x) :
      Writes machine .cycle (machine.registers.index.toNat + register.val) (machine.v register)
  /-- `Fx33` puts the decimal digits of `Vx` at the index register. -/
  | digits {x : Register} {hundreds tens units : UInt8} {offset : Nat} {value : UInt8}
      (met : machine.succeeds? = some (.storeBcd x))
      (decimal : Decimal (machine.v x) hundreds tens units)
      (given : [hundreds, tens, units][offset]? = some value) :
      Writes machine .cycle (machine.registers.index.toNat + offset) value

end Machine

/-- The act of the moment puts a byte at an address. -/
def Moment.Writes (moment : Moment) (address : Nat) (value : UInt8) : Prop :=
  moment.before.Writes moment.act address value

namespace Machine

variable {machine after : Machine} {act : Act} {address : Nat} {value : UInt8}

/-! ## What an act writes -/

/-- The bytes that an act puts into memory, with the address of the first. -/
def written? (machine : Machine) : Act → Option (Nat × List UInt8)
  | .loadRom rom =>
      match (machine.perform (.loadRom rom)).result with
      | .ok _ => some (machine.config.programStart.toNat, rom.bytes)
      | .error _ => none
  | .load bytes start =>
      match (machine.perform (.load bytes start)).result with
      | .ok _ => some (start.toNat, bytes)
      | .error _ => none
  | .cycle =>
      (machine.succeeds?.bind machine.stored?).map fun bytes =>
        (machine.registers.index.toNat, bytes)
  | _ => none

/-- The memory that writing bytes, or none, leaves. Bytes that are written lie in memory. -/
inductive Stored (before : Memory) : Option (Nat × List UInt8) → Memory → Prop where
  | kept : Stored before none before
  | written {start : Nat} {bytes : List UInt8} (inside : start + bytes.length ≤ Memory.size) :
      Stored before (some (start, bytes)) (before.write start bytes)

/-- An instruction that is carried out writes the bytes that `stored?` names for it. -/
theorem Carried.stored {before : Machine} {instruction : Instruction} {progress : Progress}
    (carried : Carried before instruction progress after) :
    Stored before.memory
      ((before.stored? instruction).map fun bytes => (before.registers.index.toNat, bytes))
      after.memory := by
  cases carried with
  | store found inside =>
      rw [found]
      exact .written inside
  | clear | back | call | wait | random | draw => exact .kept
  | flow about | transfer about =>
      have quiet : before.stored? instruction = none := by
        cases instruction <;> first | rfl | cases about
      rw [quiet]
      exact .kept

theorem stored?_fetched (machine : Machine) (opcode : Opcode) (instruction : Instruction) :
    (machine.fetched opcode).stored? instruction = machine.stored? instruction := by
  cases instruction <;> rfl

theorem stored_cycle (machine : Machine) :
    Stored machine.memory (machine.written? .cycle) machine.cycle.machine.memory := by
  have step := machine.stepped
  simp only [written?]
  generalize machine.succeeds? = instruction, machine.cycle.machine = after at step ⊢
  cases step with
  | unfetched | failed => exact .kept
  | @carried opcode instruction progress after carried =>
      have stored := carried.stored
      rw [stored?_fetched] at stored
      exact stored

/-- An act leaves memory as it is but for the bytes that it writes. -/
theorem stored_act (machine : Machine) (act : Act) :
    Stored machine.memory (machine.written? act) (machine.act act).memory := by
  by_cases cycles : act = .cycle
  · subst cycles
    exact machine.stored_cycle
  · have way := machine.hosted cycles
    cases act with
    | cycle => exact absurd rfl cycles
    | loadRom rom =>
        simp only [written?, Machine.act, Act.request] at way ⊢
        generalize machine.perform (.loadRom rom) = reply at way ⊢
        cases way with
        | rom small inside => exact .written inside
        | refusedRom => exact .kept
    | load bytes start =>
        simp only [written?, Machine.act, Act.request] at way ⊢
        generalize machine.perform (.load bytes start) = reply at way ⊢
        cases way with
        | load inside => exact .written inside
        | refusedLoad => exact .kept
    | setKey number pressed =>
        simp only [written?, Machine.act, Act.request] at way ⊢
        generalize machine.perform (.setKey number pressed) = reply at way ⊢
        cases way with
        | setKey | refusedKey => exact .kept
    | tick | releaseKeys | takeRedraw => exact .kept

/-- `Writes` lists the bytes that acts write one by one. -/
theorem writes_iff :
    machine.Writes act address value ↔
      ∃ start bytes, machine.written? act = some (start, bytes) ∧
        ∃ offset, bytes[offset]? = some value ∧ address = start + offset := by
  constructor
  · intro writes
    cases writes with
    | rom met given => exact ⟨_, _, by simp only [written?, met], _, given, rfl⟩
    | load met given => exact ⟨_, _, by simp only [written?, met], _, given, rfl⟩
    | @registers x register met covered =>
        have written : machine.written? .cycle =
            some (machine.registers.index.toNat, machine.registers.upTo x) := by
          simp only [written?, met, Option.bind_some, stored?, Option.map_some]
        exact ⟨_, _, written, _, machine.registers.getElem?_upTo x register covered, rfl⟩
    | @digits x hundreds tens units offset value met decimal given =>
        rw [decimal_iff.mp decimal] at given
        have written : machine.written? .cycle =
            some (machine.registers.index.toNat, Arithmetic.decimalDigits (machine.v x)) := by
          simp only [written?, met, Option.bind_some, stored?, Option.map_some]
        exact ⟨_, _, written, _, given, rfl⟩
  · intro written
    rcases written with ⟨start, bytes, written, offset, given, rfl⟩
    cases act with
    | loadRom rom =>
        simp only [written?] at written
        split at written
        next met =>
          cases written
          exact .rom met given
        next => cases written
    | load bytes start =>
        simp only [written?] at written
        split at written
        next met =>
          cases written
          exact .load met given
        next => cases written
    | cycle =>
        rcases Option.map_eq_some_iff.mp written with ⟨stored, found, same⟩
        rcases Option.bind_eq_some_iff.mp found with ⟨instruction, met, found⟩
        cases same
        cases instruction with
        | storeBcd x =>
            cases found
            exact .digits met (decimal_iff.mpr rfl) given
        | storeRegisters x =>
            cases found
            have below : offset < (machine.registers.upTo x).length :=
              (List.getElem?_eq_some_iff.mp given).1
            rw [Registers.length_upTo] at below
            have covered : offset ≤ x.val := Nat.le_of_lt_succ below
            have inside : offset < 16 := Nat.lt_of_le_of_lt covered x.isLt
            have shown := machine.registers.getElem?_upTo x ⟨offset, inside⟩ covered
            cases given.symm.trans shown
            exact @Writes.registers _ x ⟨offset, inside⟩ met covered
        | _ => cases found
    | tick | setKey | releaseKeys | takeRedraw => cases written

theorem byte?_of_writes (writes : machine.Writes act address value) :
    (machine.act act).memory.byte? address = some value := by
  rcases writes_iff.mp writes with ⟨start, bytes, written, offset, given, rfl⟩
  have stored := machine.stored_act act
  rw [written] at stored
  generalize (machine.act act).memory = memory at stored ⊢
  cases stored with
  | written inside => exact Memory.byte?_write_of_given _ inside given

theorem byte?_of_quiet (quiet : ∀ value, ¬ machine.Writes act address value) :
    (machine.act act).memory.byte? address = machine.memory.byte? address := by
  have stored := machine.stored_act act
  generalize there : machine.written? act = written, (machine.act act).memory = memory at stored ⊢
  cases stored with
  | kept => rfl
  | written =>
      apply Memory.byte?_write_of_ne
      intro offset below same
      exact quiet _ (writes_iff.mpr ⟨_, _, there, offset, List.getElem?_eq_getElem below, same⟩)

/-- A byte is as the act wrote it, and as it was before if the act did not write it. -/
theorem byte?_act_iff :
    (machine.act act).memory.byte? address = some value ↔
      machine.Writes act address value ∨
        (∀ other, ¬ machine.Writes act address other) ∧
          machine.memory.byte? address = some value := by
  constructor
  · intro shown
    by_cases quiet : ∀ other, ¬ machine.Writes act address other
    · rw [byte?_of_quiet quiet] at shown
      exact .inr ⟨quiet, shown⟩
    · rcases Classical.not_forall_not.mp quiet with ⟨other, writes⟩
      cases shown.symm.trans (byte?_of_writes writes)
      exact .inl writes
  · intro written
    rcases written with writes | ⟨quiet, shown⟩
    · exact byte?_of_writes writes
    · rw [byte?_of_quiet quiet]
      exact shown

theorem met_of_writes (writes : machine.Writes act address value) :
    ∃ answer, (machine.perform act.request).result = .ok answer := by
  cases writes with
  | rom met | load met => exact ⟨_, met⟩
  | registers met | digits met =>
      rcases result_of_succeeds met with ⟨progress, result⟩
      refine ⟨.progress progress, ?_⟩
      simp only [Act.request, perform, Reply.result_map, result, Except.map]

end Machine

/-! ## What a history writes -/

namespace Machine

variable {machine : Machine} {act : Act} {address : Nat} {value : UInt8}

/-- After acts a byte is as their last write left it, and as it was before if there is none. -/
theorem byte?_afterActs_iff (acts : List Act) :
    (machine.afterActs acts).memory.byte? address = some value ↔
      (∃ since, Latest (fun moment => moment.Writes address) (machine.moments acts) value since) ∨
        Silent (fun moment => moment.Writes address) (machine.moments acts) ∧
          machine.memory.byte? address = some value := by
  induction acts generalizing machine with
  | nil => simp only [moments, afterActs_nil, not_latest_nil, silent_nil, exists_false, true_and,
      false_or]
  | cons act rest ih =>
      rw [afterActs_cons, ih, byte?_act_iff, moments, silent_cons]
      simp only [latest_cons, exists_or, exists_eq_left, Moment.Writes]
      grind

theorem exists_writes_of_ne {acts : List Act}
    (changed : (machine.afterActs acts).memory.byte? address ≠ machine.memory.byte? address) :
    ∃ moment ∈ machine.moments acts, ∃ value, moment.Writes address value := by
  induction acts generalizing machine with
  | nil => exact absurd rfl changed
  | cons act rest ih =>
      rw [moments]
      by_cases quiet : ∀ value, ¬ machine.Writes act address value
      · rw [afterActs_cons, ← byte?_of_quiet quiet] at changed
        rcases ih changed with ⟨moment, member, written⟩
        exact ⟨moment, List.mem_cons_of_mem _ member, written⟩
      · exact ⟨_, List.mem_cons_self, Classical.not_forall_not.mp quiet⟩

theorem byte?_of_build {config : Config} {source : Random.Source}
    (built : build config source = .ok machine) (inside : address < Memory.size) :
    machine.memory.byte? address = some (config.firstByte address) := by
  rcases build_eq_ok_iff.mp built with ⟨_, rfl⟩
  have whole : Font.bytes.length = 80 := Font.length_bytes
  simp only [initial, Memory.byte?_write, Memory.byte?_blank, Config.firstByte, whole, inside,
    and_true, if_true]
  split
  next font =>
    have place : address - config.fontStart.toNat < Font.bytes.length := by
      rw [whole]
      omega
    rw [List.getD_eq_getElem?_getD, List.getElem?_eq_getElem place, Option.getD_some]
  next => rfl

/-- After any requests an address shows the byte that the last act which wrote there put there: the
byte of a rom or of a load that was met, of the registers that an `Fx55` stored or of the digits that
an `Fx33` stored. If no act wrote there it shows what building put there. A request changes a byte
only by acts that write it, and those are met. -/
theorem memory_replays {config : Config} {source : Random.Source} {start : Machine}
    (built : build config source = .ok start) :
    (∀ requests address value, address < 4096 →
      let history := start.moments (start.actsAll requests)
      (start.afterAll requests).memory.byte? address = some value ↔
        (∃ since, Latest (fun moment => moment.Writes address) history value since) ∨
          Silent (fun moment => moment.Writes address) history ∧
            value = config.firstByte address) ∧
    ∀ (machine : Machine) request address,
      (machine.perform request).machine.memory.byte? address ≠ machine.memory.byte? address →
        ∃ moment ∈ machine.moments (machine.acts request), ∃ value,
          moment.Writes address value ∧
            ∃ answer, (moment.before.perform moment.act.request).result = .ok answer := by
  constructor
  · intro requests address value inside history
    rw [← afterActs_actsAll, byte?_afterActs_iff, byte?_of_build built inside, Option.some.injEq,
      eq_comm (a := config.firstByte address)]
  · intro machine request address changed
    rw [← afterActs_acts] at changed
    rcases exists_writes_of_ne changed with ⟨moment, member, value, writes⟩
    exact ⟨moment, member, value, writes, met_of_writes writes⟩

set_option maxRecDepth 8000 in
theorem memory_replays_of_digits :
    ∃ start : Machine, build .standard .zeroKeyed = .ok start ∧
      let program := [0x60, 0x9D, 0xA3, 0x00, 0xF0, 0x33]
      let requests := [.load program 0x200, .load [7, 7, 7] 0x300, .frame 3]
      let history := start.moments (start.actsAll requests)
      ∃ since, Latest (fun moment => moment.Writes 0x301) history 5 since := by
  have built := build_standard .zeroKeyed
  refine ⟨_, built, ?_⟩
  intro program requests history
  rcases memory_replays built with ⟨shows, _⟩
  have last := (shows requests 0x301 5 (by decide)).mp (by decide +kernel)
  rcases last with written | ⟨_, blank⟩
  · exact written
  · exact absurd blank (by decide)

end Machine

end Chip8
