import Chip8.Proofs.Instruction.Reading
import Chip8.Proofs.Machine.Cycles
import Chip8.Proofs.Memory.Words
import Chip8.Proofs.Runs.Acts

/-!
# The parts that a host and a program share

A host reaches into a running machine in three places: it ticks the timers, it presses keys and lets go
of them, and it takes the redraw flag. An instruction uses at most one of these parts, and `Uses` says
which words are written for those that use one.

A change of one part goes unseen by a cycle that does not use it. `cycle_changed` says so of every such
cycle, whether it goes well, waits or fails: the change can be made before it or behind it.
-/

namespace Chip8

/-- A part of a machine that both a host and a program use. -/
inductive Part where
  | timers
  | keys
  | redraw
  deriving DecidableEq, Repr

/-- The part that a request of the host reaches into, between cycles. -/
def Request.part? : Request → Option Part
  | .tick => some .timers
  | .setKey .. | .releaseKeys => some .keys
  | .takeRedraw => some .redraw
  | _ => none

/-- The part that an instruction uses, if it uses one. -/
def Instruction.part? : Instruction → Option Part
  | .loadDelayTimer _ | .setDelayTimer _ | .setSoundTimer _ => some .timers
  | .skipIfPressed _ | .skipIfNotPressed _ | .waitForKey _ => some .keys
  | .clearScreen | .draw .. => some .redraw
  | _ => none

/-- The words of instructions that use a part: `Fx07`, `Fx15` and `Fx18` the timers, `Ex9E`, `ExA1` and
`Fx0A` the keys, `00E0` and `Dxyn` the redraw flag. -/
def Opcode.Uses (word : Opcode) : Part → Prop
  | .timers => ∃ x, word = .ofByte 0xF x 0x07 ∨ word = .ofByte 0xF x 0x15 ∨ word = .ofByte 0xF x 0x18
  | .keys => ∃ x, word = .ofByte 0xE x 0x9E ∨ word = .ofByte 0xE x 0xA1 ∨ word = .ofByte 0xF x 0x0A
  | .redraw => word = 0x00E0 ∨ ∃ x y n : Digit, word = .ofDigits 0xD x y n.val

/-- A word uses the part that its instruction uses. -/
theorem Opcode.uses_iff {word : Opcode} {instruction : Instruction} {part : Part}
    (known : Instruction.ofOpcode? word = some instruction) :
    word.Uses part ↔ instruction.part? = some part := by
  constructor
  · intro uses
    have same (other : Instruction) (written : word = other.opcode) : instruction = other :=
      Instruction.eq_of_opcode known written
    cases part with
    | timers =>
        rcases uses with ⟨x, read | delay | sound⟩
        · rw [same (.loadDelayTimer x) read]
          rfl
        · rw [same (.setDelayTimer x) delay]
          rfl
        · rw [same (.setSoundTimer x) sound]
          rfl
    | keys =>
        rcases uses with ⟨x, pressed | released | awaited⟩
        · rw [same (.skipIfPressed x) pressed]
          rfl
        · rw [same (.skipIfNotPressed x) released]
          rfl
        · rw [same (.waitForKey x) awaited]
          rfl
    | redraw =>
        rcases uses with clear | ⟨x, y, n, drawn⟩
        · rw [same .clearScreen clear]
          rfl
        · rw [same (.draw x y n) drawn]
          rfl
  · intro uses
    have written := Instruction.ofOpcode?_eq_some_iff.mp known
    cases instruction with
    | loadDelayTimer x =>
        cases uses
        exact ⟨x, .inl written⟩
    | setDelayTimer x =>
        cases uses
        exact ⟨x, .inr (.inl written)⟩
    | setSoundTimer x =>
        cases uses
        exact ⟨x, .inr (.inr written)⟩
    | skipIfPressed x =>
        cases uses
        exact ⟨x, .inl written⟩
    | skipIfNotPressed x =>
        cases uses
        exact ⟨x, .inr (.inl written)⟩
    | waitForKey x =>
        cases uses
        exact ⟨x, .inr (.inr written)⟩
    | clearScreen =>
        cases uses
        exact .inl written
    | draw x y n =>
        cases uses
        exact .inr ⟨x, y, n, written⟩
    | _ => cases uses

/-- Press the key with a number, or let go of it, if the number is that of a key. -/
def Keypad.setNumber (keypad : Keypad) (number : UInt8) (pressed : Bool) : Keypad :=
  match Key.ofByte number with
  | .ok key => keypad.set key pressed
  | .error _ => keypad

/-- A change of one part. -/
inductive Change where
  | timers (count : UInt8 → UInt8)
  | keys (press : Keypad → Keypad)
  | redraw (raise : Bool → Bool)

def Change.part : Change → Part
  | .timers _ => .timers
  | .keys _ => .keys
  | .redraw _ => .redraw

namespace Machine

def changed (machine : Machine) : Change → Machine
  | .timers count =>
      { machine with
        registers := { machine.registers with
          delay := count machine.registers.delay, sound := count machine.registers.sound } }
  | .keys press => { machine with keypad := press machine.keypad }
  | .redraw raise => { machine with redraw := raise machine.redraw }

variable {machine : Machine} {change : Change} {instruction : Instruction} {request : Request}
variable {part : Part}

theorem changed_comm (machine : Machine) {first second : Change}
    (different : first.part ≠ second.part) :
    (machine.changed first).changed second = (machine.changed second).changed first := by
  cases first <;> cases second <;> first | rfl | exact absurd rfl different

/-! ## Cycles -/

/-- An instruction does the same behind a change of a part that it does not use. -/
theorem execute_changed (unused : instruction.part? ≠ some change.part) :
    (machine.changed change).execute instruction =
      (machine.execute instruction).map fun outcome =>
        (outcome.1, outcome.2.changed change) := by
  cases instruction with
  | loadDelayTimer | setDelayTimer | setSoundTimer =>
      cases change with
      | timers => exact absurd rfl unused
      | keys | redraw => rfl
  | clearScreen =>
      cases change with
      | redraw => exact absurd rfl unused
      | timers | keys => rfl
  | draw x y n =>
      cases change with
      | redraw => exact absurd rfl unused
      | timers | keys =>
          simp only [execute, drawSprite, changed]
          cases machine.memory.slice machine.registers.index n.val <;> rfl
  | skipIfPressed x | skipIfNotPressed x =>
      cases change with
      | keys => exact absurd rfl unused
      | timers | redraw =>
          simp only [execute, keyIn, changed, v, Registers.get]
          cases Key.ofByte _ <;> rfl
  | waitForKey x =>
      cases change with
      | keys => exact absurd rfl unused
      | timers | redraw =>
          simp only [execute, awaitKey, changed]
          cases machine.keypad.lowest? <;> rfl
  | returnFromSubroutine =>
      cases change with
      | _ =>
          simp only [execute, changed]
          cases machine.stack.pop <;> rfl
  | call nnn =>
      cases change with
      | _ =>
          simp only [execute, changed]
          cases machine.stack.push machine.config.stackDepth machine.pc <;> rfl
  | addToIndex x =>
      cases change with
      | _ =>
          simp only [execute, addToIndex, changed]
          by_cases flags : machine.config.flagsIndexOverflow
          · simp only [flags, if_true]
            rfl
          · simp only [flags]
            rfl
  | storeBcd x =>
      cases change with
      | _ =>
          simp only [execute, storeAtIndex, changed, v, Registers.get]
          cases machine.memory.load _ machine.registers.index <;> rfl
  | storeRegisters x =>
      cases change with
      | _ =>
          simp only [execute, storeAtIndex, changed, Registers.upTo]
          cases machine.memory.load _ machine.registers.index <;> rfl
  | loadRegisters x =>
      cases change with
      | _ =>
          simp only [execute, fetchRegisters, changed]
          cases machine.memory.slice machine.registers.index _ <;> rfl
  | _ => cases change <;> rfl

theorem apart_of_part? {word : Opcode} (found : machine.memory.opcodeAt machine.pc = .ok word)
    (known : Instruction.ofOpcode? word = some instruction)
    (unused : instruction.part? ≠ some part) :
    ∀ other, machine.memory.WordAt machine.pc.toNat other → ¬ other.Uses part := by
  intro other there uses
  rw [← Memory.opcodeAt_eq_ok_iff_wordAt, found] at there
  cases there
  exact unused ((Opcode.uses_iff known).mp uses)

theorem fetched_changed (machine : Machine) (change : Change) (opcode : Opcode) :
    (machine.changed change).fetched opcode = (machine.fetched opcode).changed change := by
  cases change <;> rfl

theorem opcodeAt_changed (machine : Machine) (change : Change) :
    (machine.changed change).memory.opcodeAt (machine.changed change).pc =
      machine.memory.opcodeAt machine.pc := by
  cases change <;> rfl

/-- A cycle that does not use a part does the same behind a change of it: what it comes to is the same,
and the change is still there. -/
theorem cycle_changed (change : Change)
    (apart : ∀ word, machine.memory.WordAt machine.pc.toNat word → ¬ word.Uses change.part) :
    (machine.changed change).cycle.result = machine.cycle.result ∧
      (machine.changed change).cycle.machine = machine.cycle.machine.changed change := by
  apply @cycle_alike (fun left right => right = left.changed change) _ _ rfl
    (machine.opcodeAt_changed change) (machine.fetched_changed change)
  intro word instruction found known
  have unused : instruction.part? ≠ some change.part := fun used =>
    apart word (Memory.opcodeAt_eq_ok_iff_wordAt.mp found) ((Opcode.uses_iff known).mpr used)
  rw [fetched_changed]
  exact alike_of_map (execute_changed unused)

theorem redraw_cycle
    (apart : ∀ word, machine.memory.WordAt machine.pc.toNat word → ¬ word.Uses .redraw) :
    machine.cycle.machine.redraw = machine.redraw := by
  -- To set the flag to what it is, is a change as well.
  rcases cycle_changed (.redraw fun _ => machine.redraw) apart with ⟨_, after⟩
  have same : machine.changed (.redraw fun _ => machine.redraw) = machine := rfl
  rw [same] at after
  rw [after]
  rfl

/-! ## Requests of the host -/

theorem machine_setKey (number : UInt8) (pressed : Bool) (machine : Machine) :
    (machine.perform (.setKey number pressed)).machine =
      machine.changed (.keys (·.setNumber number pressed)) := by
  simp only [perform, setKey, changed, Keypad.setNumber]
  cases Key.ofByte number <;> rfl

/-- What a host does to a part is a change of it. -/
theorem exists_change (uses : request.part? = some part) :
    ∃ change : Change, change.part = part ∧
      ∀ machine : Machine, (machine.perform request).machine = machine.changed change := by
  cases request with
  | tick =>
      cases uses
      exact ⟨.timers Registers.countDown, rfl, fun _ => rfl⟩
  | setKey number pressed =>
      cases uses
      exact ⟨.keys (·.setNumber number pressed), rfl, machine_setKey number pressed⟩
  | releaseKeys =>
      cases uses
      exact ⟨.keys fun _ => .released, rfl, fun _ => rfl⟩
  | takeRedraw =>
      cases uses
      exact ⟨.redraw fun _ => false, rfl, fun _ => rfl⟩
  | _ => cases uses

/-- A host learns of a part no more than whether to redraw. -/
theorem result_perform {left right : Machine} (uses : request.part? = some part)
    (same : part = .redraw → left.redraw = right.redraw) :
    (left.perform request).result = (right.perform request).result := by
  cases request with
  | tick | releaseKeys => rfl
  | setKey number pressed =>
      simp only [perform, setKey, Reply.result_map]
      cases Key.ofByte number <;> rfl
  | takeRedraw =>
      cases uses
      simp only [perform, takeRedraw, Reply.result_map, same rfl]
      rfl
  | _ => cases uses

theorem redraw_changed (machine : Machine) (other : change.part ≠ .redraw) :
    (machine.changed change).redraw = machine.redraw := by
  cases change with
  | timers | keys => rfl
  | redraw => exact absurd rfl other

end Machine

end Chip8
