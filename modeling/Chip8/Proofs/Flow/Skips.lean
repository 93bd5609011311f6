import Chip8.Proofs.Machine.Cycles
import Chip8.Proofs.Runs.Acts

/-!
# Skips come in opposite pairs

Six words may step over the word behind them. They belong to three conditions: whether a register is a
byte, whether two registers are equal, and whether a key is pressed. Each condition has one word that
skips where it holds and one that skips where it does not, so of two machines that differ in nothing but
which of the two they face, exactly one skips. Only the condition on a key can be impossible to look at,
and then both words are refused alike.

`execute_skip` reduces the six instructions to a look at the condition, and `comesTo_of_looked` and
`comesTo_of_fails` say what a cycle on either word comes to.
-/

namespace Chip8

/-- The two bytes of a word, the high one first. -/
def Opcode.bytes (word : Opcode) : List UInt8 :=
  [UInt8.ofNat (word.toNat / 0x100), word.kk]

theorem Opcode.ofBytes_bytes (word : Opcode) :
    ofBytes (UInt8.ofNat (word.toNat / 0x100)) word.kk = word := by
  have bound := word.toNat_lt
  apply UInt16.toNat_inj.mp
  rw [toNat_ofBytes, toNat_kk, UInt8.toNat_ofNat']
  omega

/-- What a word that may skip looks at. -/
inductive Condition where
  /-- Whether `Vx` is the byte. -/
  | byte (x : Register) (kk : UInt8)
  /-- Whether `Vx` and `Vy` are equal. -/
  | registers (x y : Register)
  /-- Whether the key with the number in `Vx` is pressed. -/
  | key (x : Register)
  deriving DecidableEq, Repr

namespace Condition

/-- The word that skips where the condition holds (`3xkk`, `5xy0` and `Ex9E`), or the one that skips
where it does not (`4xkk`, `9xy0` and `ExA1`). -/
def word : Condition → (wanted : Bool) → Opcode
  | byte x kk, true => .ofByte 0x3 x kk
  | byte x kk, false => .ofByte 0x4 x kk
  | registers x y, true => .ofDigits 0x5 x y 0x0
  | registers x y, false => .ofDigits 0x9 x y 0x0
  | key x, true => .ofByte 0xE x 0x9E
  | key x, false => .ofByte 0xE x 0xA1

def skip : Condition → (wanted : Bool) → Instruction
  | byte x kk, true => .skipIfEqualByte x kk
  | byte x kk, false => .skipIfNotEqualByte x kk
  | registers x y, true => .skipIfEqual x y
  | registers x y, false => .skipIfNotEqual x y
  | key x, true => .skipIfPressed x
  | key x, false => .skipIfNotPressed x

/-- The condition holds. -/
def Holds (machine : Machine) : Condition → Prop
  | byte x kk => machine.v x = kk
  | registers x y => machine.v x = machine.v y
  | key x => ∃ key : Key, (machine.v x).toNat = key.val ∧ machine.keypad.isPressed key = true

/-- The condition cannot be looked at: it is about a key, and the register numbers none of the
sixteen. -/
inductive Fails (machine : Machine) : Condition → Fault → Prop where
  | key {x : Register} (above : 0xF < (machine.v x).toNat) :
      Fails machine (.key x) (.invalidKey (machine.v x))

def look (machine : Machine) : Condition → Except Fault Bool
  | byte x kk => .ok (machine.v x == kk)
  | registers x y => .ok (machine.v x == machine.v y)
  | key x => machine.keyIn x

variable {machine : Machine} {condition : Condition} {fault : Fault} {holds : Bool}

theorem opcode_skip (condition : Condition) (wanted : Bool) :
    (condition.skip wanted).opcode = condition.word wanted := by
  cases condition <;> cases wanted <;> rfl

theorem look_eq_error_iff :
    condition.look machine = .error fault ↔ condition.Fails machine fault := by
  cases condition with
  | byte | registers =>
      constructor
      · intro failed
        cases failed
      · intro fails
        cases fails
  | key x =>
      rw [look, Machine.keyIn_eq_error_iff]
      constructor
      · rintro ⟨above, rfl⟩
        exact .key above
      · intro fails
        cases fails with
        | key above => exact ⟨above, rfl⟩

theorem holds_iff_of_look (looked : condition.look machine = .ok holds) :
    condition.Holds machine ↔ holds = true := by
  cases condition with
  | byte | registers =>
      cases looked
      exact beq_iff_eq.symm
  | key x =>
      rcases Machine.keyIn_eq_ok_iff.mp looked with ⟨key, named, rfl⟩
      constructor
      · rintro ⟨other, also, pressed⟩
        rw [Fin.ext (named.symm.trans also)]
        exact pressed
      · intro pressed
        exact ⟨key, named, pressed⟩

end Condition

namespace Machine

/-- The same machine with the word in memory that it fetches next. -/
def facing (machine : Machine) (word : Opcode) : Machine :=
  { machine with memory := machine.memory.write machine.pc.toNat word.bytes }

/-- What a cycle comes to once a machine faces a word: its result and where the machine goes on, while
all else is left as it was, the opcode and the two bytes of the word apart. -/
structure ComesTo (machine : Machine) (word : Opcode) (result : Except Fault Progress) (place : Nat) :
    Prop where
  result_eq : (machine.facing word).cycle.result = result
  pc_eq : (machine.facing word).cycle.machine.pc.toNat = place
  word_at : (machine.facing word).cycle.machine.memory.WordAt machine.pc.toNat word
  byte_eq : ∀ address, address ≠ machine.pc.toNat → address ≠ machine.pc.toNat + 1 →
    (machine.facing word).cycle.machine.memory.byte? address = machine.memory.byte? address
  rest_eq : (machine.facing word).cycle.machine = { machine with
    pc := (machine.facing word).cycle.machine.pc
    opcode := word
    memory := (machine.facing word).cycle.machine.memory }

variable {machine : Machine} {condition : Condition} {wanted holds : Bool} {fault : Fault}
variable {word : Opcode} {result : Except Fault Progress} {pc : UInt16} {place : Nat}

/-! ## Cycles on a skip -/

/-- An instruction that may skip looks at its condition and compares what it sees with what it wants. -/
theorem execute_skip (machine : Machine) (condition : Condition) (wanted : Bool) :
    machine.execute (condition.skip wanted) =
      condition.look machine >>= fun holds => (machine.skipIf (holds == wanted)).executed := by
  cases condition <;> cases wanted <;> simp only [Condition.skip, Condition.look, execute, bne,
    beq_true, beq_false, bind, Except.bind]

theorem look_fetched (machine : Machine) (word : Opcode) (condition : Condition) :
    condition.look (machine.fetched word) = condition.look machine := by
  cases condition <;> rfl

/-- A cycle on a word whose condition can be looked at skips if the look shows what the word wants. -/
theorem cycle_of_looked (there : machine.memory.WordAt machine.pc.toNat (condition.word wanted))
    (looked : condition.look machine = .ok holds) :
    machine.cycle.result = .ok .executed ∧
      machine.cycle.machine = (machine.fetched (condition.word wanted)).skipIf (holds == wanted) := by
  rw [← condition.opcode_skip] at there ⊢
  apply cycle_of_word _ there
  rw [execute_skip, look_fetched, looked]
  rfl

theorem cycle_of_unlooked (there : machine.memory.WordAt machine.pc.toNat (condition.word wanted))
    (failed : condition.look machine = .error fault) :
    machine.cycle.result = .error fault ∧
      machine.cycle.machine = machine.fetched (condition.word wanted) := by
  have found := Memory.opcodeAt_eq_ok_iff_wordAt.mpr there
  have known : Instruction.ofOpcode? (condition.word wanted) = some (condition.skip wanted) := by
    rw [← condition.opcode_skip]
    exact Instruction.ofOpcode?_opcode _
  have refused :
      (machine.fetched (condition.word wanted)).execute (condition.skip wanted) = .error fault := by
    rw [execute_skip, look_fetched, failed]
    rfl
  rw [cycle_of_refused found known refused]
  exact ⟨rfl, rfl⟩

/-- Where a word that may skip leads: behind itself, or behind the word after it. -/
theorem toNat_pc_skipIf (found : machine.memory.opcodeAt machine.pc = .ok word) (skips : Bool) :
    ((machine.fetched word).skipIf skips).pc.toNat =
      machine.pc.toNat + if skips then 4 else 2 := by
  rcases toNat_pc_fetched found with ⟨behind, inside⟩
  cases skips with
  | false => exact behind
  | true =>
      simp only [Memory.size] at inside
      simp only [skipIf, if_true, UInt16.toNat_add, UInt16.reduceToNat, behind]
      omega

/-! ## Machines that face a word -/

theorem wordAt_facing (inside : machine.pc.toNat ≤ 0xFFE) (word : Opcode) :
    (machine.facing word).memory.WordAt machine.pc.toNat word := by
  apply Memory.opcodeAt_eq_ok_iff_wordAt.mp
  have written := machine.memory.opcodeAt_write (UInt8.ofNat (word.toNat / 0x100)) word.kk
    (Nat.add_le_add_right inside 2)
  rw [Opcode.ofBytes_bytes] at written
  exact written

theorem look_facing (machine : Machine) (word : Opcode) (condition : Condition) :
    condition.look (machine.facing word) = condition.look machine := by
  cases condition <;> rfl

/-- A cycle that only goes on elsewhere keeps all that `ComesTo` asks for. -/
theorem comesTo_of_cycle (inside : machine.pc.toNat ≤ 0xFFE)
    (result_eq : (machine.facing word).cycle.result = result)
    (machine_eq : (machine.facing word).cycle.machine =
      { machine.facing word with opcode := word, pc })
    (place_eq : pc.toNat = place) : machine.ComesTo word result place := by
  refine ⟨result_eq, ?_, ?_, ?_, ?_⟩
  · rw [machine_eq]
    exact place_eq
  · rw [machine_eq]
    exact wordAt_facing inside word
  · intro address other behind
    rw [machine_eq]
    simp only [facing, Opcode.bytes, Memory.byte?_write, List.length_cons, List.length_nil]
    apply if_neg
    omega
  · rw [machine_eq]
    rfl

theorem comesTo_of_looked (inside : machine.pc.toNat ≤ 0xFFE)
    (looked : condition.look machine = .ok holds) (wanted : Bool) :
    machine.ComesTo (condition.word wanted) (.ok .executed)
      (machine.pc.toNat + if holds == wanted then 4 else 2) := by
  have there := wordAt_facing inside (condition.word wanted)
  rw [← look_facing machine (condition.word wanted)] at looked
  rcases cycle_of_looked there looked with ⟨executed, machine_eq⟩
  apply comesTo_of_cycle inside executed machine_eq
  exact toNat_pc_skipIf (Memory.opcodeAt_eq_ok_iff_wordAt.mpr there) (holds == wanted)

theorem comesTo_of_fails (inside : machine.pc.toNat ≤ 0xFFE)
    (fails : condition.Fails machine fault) (wanted : Bool) :
    machine.ComesTo (condition.word wanted) (.error fault) (machine.pc.toNat + 2) := by
  have there := wordAt_facing inside (condition.word wanted)
  have failed := Condition.look_eq_error_iff.mpr fails
  rw [← look_facing machine (condition.word wanted)] at failed
  rcases cycle_of_unlooked there failed with ⟨refused, machine_eq⟩
  apply comesTo_of_cycle inside refused machine_eq
  exact (toNat_pc_fetched (Memory.opcodeAt_eq_ok_iff_wordAt.mpr there)).1

/-- Put either word of a condition where a machine fetches. If the condition is about a key and the
register numbers none, both cycles are refused with this fault, behind the word; otherwise both carry
their word out, and one of them goes on behind the word and the other behind the next: the first skips
exactly if the condition holds, the second exactly if it does not. Neither leaves anything else
changed. -/
theorem paired_skips_complement (machine : Machine) (inside : machine.pc.toNat ≤ 0xFFE)
    (condition : Condition) :
    let first := condition.word true
    let second := condition.word false
    let place := machine.pc.toNat
    (∀ fault, condition.Fails machine fault →
      machine.ComesTo first (.error fault) (place + 2) ∧
        machine.ComesTo second (.error fault) (place + 2)) ∧
    ((∀ fault, ¬ condition.Fails machine fault) →
      (condition.Holds machine →
        machine.ComesTo first (.ok .executed) (place + 4) ∧
          machine.ComesTo second (.ok .executed) (place + 2)) ∧
      (¬ condition.Holds machine →
        machine.ComesTo first (.ok .executed) (place + 2) ∧
          machine.ComesTo second (.ok .executed) (place + 4))) := by
  intro first second place
  constructor
  · intro fault fails
    exact ⟨comesTo_of_fails inside fails true, comesTo_of_fails inside fails false⟩
  · intro possible
    cases looked : condition.look machine with
    | error fault => exact absurd (Condition.look_eq_error_iff.mp looked) (possible fault)
    | ok holds =>
        have one := comesTo_of_looked inside looked true
        have other := comesTo_of_looked inside looked false
        have truth := Condition.holds_iff_of_look looked
        constructor
        · intro held
          cases truth.mp held
          exact ⟨one, other⟩
        · intro missed
          cases eq_false_of_ne_true fun shown => missed (truth.mpr shown)
          exact ⟨one, other⟩

set_option maxRecDepth 8000 in
theorem paired_skips_complement_of_last_word :
    ∃ start : Machine, build .standard .zeroKeyed = .ok start ∧
      let program := [0x6A, 0x10, 0x1F, 0xFE]
      let machine := start.afterAll [.load program 0x200, .setKey 0 true, .frame 2]
      machine.pc.toNat ≤ 0xFFE ∧
        (machine.ComesTo 0x3A10 (.ok .executed) 0x1002 ∧
          machine.ComesTo 0x4A10 (.ok .executed) 0x1000) ∧
        (machine.ComesTo 0x5A00 (.ok .executed) 0x1000 ∧
          machine.ComesTo 0x9A00 (.ok .executed) 0x1002) ∧
        (machine.ComesTo 0xE09E (.ok .executed) 0x1002 ∧
          machine.ComesTo 0xE0A1 (.ok .executed) 0x1000) ∧
        (machine.ComesTo 0xEA9E (.error (.invalidKey 0x10)) 0x1000 ∧
          machine.ComesTo 0xEAA1 (.error (.invalidKey 0x10)) 0x1000) := by
  refine ⟨_, build_standard .zeroKeyed, ?_⟩
  intro program
  generalize made : afterAll _ [.load program 0x200, .setKey 0 true, .frame 2] = machine
  have seen : machine.pc.toNat = 0xFFE ∧ machine.v 0xA = 0x10 ∧ machine.v 0 = 0 ∧
      machine.keypad.isPressed 0 = true := by
    subst made
    decide +kernel
  rcases seen with ⟨place, loaded, zero, pressed⟩
  have inside : machine.pc.toNat ≤ 0xFFE := Nat.le_of_eq place
  have byte := (paired_skips_complement machine inside (.byte 0xA 0x10)).2 (by rintro _ ⟨⟩)
  have registers := (paired_skips_complement machine inside (.registers 0xA 0)).2 (by rintro _ ⟨⟩)
  have key := (paired_skips_complement machine inside (.key 0)).2 (by
    rintro _ ⟨above⟩
    rw [zero] at above
    cases above)
  have none : (Condition.key 0xA).Fails machine (.invalidKey 0x10) := by
    rw [← loaded]
    exact .key (by rw [loaded]; decide)
  have refused := (paired_skips_complement machine inside (.key 0xA)).1 _ none
  rw [place] at byte registers key refused
  refine ⟨inside, byte.1 loaded, registers.2 ?_, key.1 ⟨0, ?_, pressed⟩, refused⟩
  · simp only [Condition.Holds, loaded, zero]
    decide
  · rw [zero]
    rfl

end Machine

end Chip8
