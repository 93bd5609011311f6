import Chip8.Proofs.Instruction.Reading
import Chip8.Proofs.Memory.Replay
import Chip8.Proofs.Memory.Words

/-!
# Waiting for a key

A cycle waits exactly on the instruction that asks for a key while no key is pressed, and nothing of
it remains but the opcode that was fetched. So a machine that waits can be asked again and again:
whatever a host does, as long as no cycle finds a key pressed and the two bytes of the instruction
stay, every cycle waits at the same place, and the first one that finds a key pressed goes on from
there as if nothing had happened in between.
-/

namespace Chip8

/-- The word that asks for a key: `Fx0A`. -/
def Opcode.awaitKey (x : Register) : Opcode := .ofByte 0xF x 0x0A

/-- A history that gives a machine which waits at a place no reason to go on: no key is pressed at its
cycles, and what a host does in between keeps the two bytes at the place. -/
structure Undisturbed (place : Nat) (history : List Moment) : Prop where
  released : ∀ moment ∈ history, moment.act = .cycle →
    ∀ key, moment.before.keypad.isPressed key = false
  kept : ∀ moment ∈ history, moment.act ≠ .cycle →
    ∀ address, address = place ∨ address = place + 1 →
      (moment.before.act moment.act).memory.byte? address = moment.before.memory.byte? address

theorem undisturbed_cons {place : Nat} {moment : Moment} {rest : List Moment} :
    Undisturbed place (moment :: rest) ↔ Undisturbed place [moment] ∧ Undisturbed place rest := by
  constructor
  · intro whole
    rcases List.forall_mem_cons.mp whole.released with ⟨released, laterReleased⟩
    rcases List.forall_mem_cons.mp whole.kept with ⟨kept, laterKept⟩
    exact ⟨⟨List.forall_mem_singleton.mpr released, List.forall_mem_singleton.mpr kept⟩,
      laterReleased, laterKept⟩
  · intro parts
    rcases parts with ⟨first, later⟩
    constructor
    · exact List.forall_mem_cons.mpr ⟨first.released _ List.mem_cons_self, later.released⟩
    · exact List.forall_mem_cons.mpr ⟨first.kept _ List.mem_cons_self, later.kept⟩

namespace Machine

/-- A machine after another that differs at most in memory, the timers, the keypad, the redraw flag
and the opcode that was fetched last. -/
def Idled (before after : Machine) : Prop :=
  ∃ memory delay sound keypad redraw opcode,
    after = { before with
      memory, keypad, redraw, opcode, registers := { before.registers with delay, sound } }

/-- A cycle that finds a key pressed and goes on: it puts the lowest pressed key into the register,
moves behind the instruction and leaves all else as it is. -/
structure Resumes (machine : Machine) (x : Register) (key : Key) : Prop where
  pressed : machine.keypad.isPressed key = true
  lowest : ∀ lower < key, machine.keypad.isPressed lower = false
  executed : machine.cycle.result = .ok .executed
  value_eq : (machine.cycle.machine.v x).toNat = key.val
  others_eq : ∀ other ≠ x, machine.cycle.machine.v other = machine.v other
  pc_eq : machine.cycle.machine.pc.toNat = machine.pc.toNat + 2
  machine_eq : machine.cycle.machine = { machine with
    opcode := .awaitKey x
    pc := machine.pc + 2
    registers := machine.registers.set x (machine.cycle.machine.v x) }

variable {machine after last : Machine} {x : Register} {key : Key} {act : Act}
variable {address : Nat} {value : UInt8}

theorem Idled.refl (machine : Machine) : Idled machine machine :=
  ⟨_, _, _, _, _, _, rfl⟩

theorem Idled.trans (first : Idled machine after) (second : Idled after last) :
    Idled machine last := by
  rcases first with ⟨_, _, _, _, _, _, rfl⟩
  rcases second with ⟨_, _, _, _, _, _, rfl⟩
  exact ⟨_, _, _, _, _, _, rfl⟩

theorem Idled.pc_eq (idled : Idled machine after) : after.pc = machine.pc := by
  rcases idled with ⟨_, _, _, _, _, _, rfl⟩
  rfl

/-! ## A cycle on the instruction -/

theorem ofOpcode?_awaitKey (x : Register) :
    Instruction.ofOpcode? (.awaitKey x) = some (.waitForKey x) :=
  Instruction.ofOpcode?_opcode (.waitForKey x)

/-- Only the instruction that asks for a key waits, and only while no key is pressed. -/
theorem waits_of_cycle (waits : machine.cycle.result = .ok (.waitingForKey x)) :
    machine.memory.WordAt machine.pc.toNat (.awaitKey x) ∧
      ∀ key, machine.keypad.isPressed key = false := by
  have way := machine.cycled
  generalize machine.cycle.result = result, machine.cycle.machine = after at waits way
  cases way with
  | unfetched | unknown | refused => cases waits
  | carried found known met =>
      cases waits
      cases carried_of_execute met with
      | wait released =>
          have written := Instruction.ofOpcode?_eq_some_iff.mp known
          rw [show _ = Opcode.awaitKey x from written] at found
          exact ⟨Memory.opcodeAt_eq_ok_iff_wordAt.mp found, Keypad.lowest?_eq_none_iff.mp released⟩

theorem cycle_of_released (there : machine.memory.WordAt machine.pc.toNat (.awaitKey x))
    (released : ∀ key, machine.keypad.isPressed key = false) :
    machine.cycle.result = .ok (.waitingForKey x) ∧
      machine.cycle.machine = { machine with opcode := .awaitKey x } := by
  have none : machine.keypad.lowest? = none := Keypad.lowest?_eq_none_iff.mpr released
  apply cycle_of_word (.waitForKey x) there
  simp only [execute, Machine.awaitKey, fetched, none, UInt16.add_sub_cancel]
  rfl

theorem resumes_of_pressed (there : machine.memory.WordAt machine.pc.toNat (.awaitKey x))
    (pressed : ∃ key, machine.keypad.isPressed key = true) : ∃ key, Resumes machine x key := by
  have found := Memory.opcodeAt_eq_ok_iff_wordAt.mpr there
  cases first : machine.keypad.lowest? with
  | none =>
      rcases pressed with ⟨key, pressed⟩
      have released := Keypad.lowest?_eq_none_iff.mp first key
      cases pressed.symm.trans released
  | some key =>
      rcases Keypad.lowest?_eq_some_iff.mp first with ⟨pressed, lowest⟩
      have met : (machine.fetched (.awaitKey x)).execute (.waitForKey x) =
          .ok (.executed, (machine.fetched (.awaitKey x)).setV x key.toByte) := by
        simp only [execute, Machine.awaitKey, fetched, first]
      rcases cycle_of_word (.waitForKey x) there met with ⟨executed, after_eq⟩
      have shown : machine.cycle.machine.v x = key.toByte := by
        rw [after_eq, v_setV, if_pos rfl]
      refine ⟨key, ?_⟩
      exact
        { pressed
          lowest
          executed
          value_eq := by rw [shown, Key.toNat_toByte]
          others_eq := by
            intro other different
            rw [after_eq, v_setV, if_neg different.symm]
            rfl
          pc_eq := by
            rw [after_eq]
            exact (toNat_pc_fetched found).1
          machine_eq := by
            rw [shown, after_eq]
            rfl }

/-- While no key is pressed a frame is one cycle and one tick, however long it may be. -/
theorem runFrame_of_released (there : machine.memory.WordAt machine.pc.toNat (.awaitKey x))
    (released : ∀ key, machine.keypad.isPressed key = false) (limit : Nat) :
    machine.runFrame (limit + 1) =
      ⟨.ok (.waitingForKey x), machine.cycle.machine.tick.machine,
        machine.cycle.log ++ machine.cycle.machine.tick.log⟩ := by
  rw [runFrame_succ]
  simp only [(cycle_of_released there released).1]

/-! ## Waiting on -/

/-- An act that does not disturb a machine which waits leaves it waiting at the same place. -/
theorem idles_act (there : machine.memory.WordAt machine.pc.toNat (.awaitKey x))
    (undisturbed : Undisturbed machine.pc.toNat [⟨machine, act⟩]) :
    Idled machine (machine.act act) ∧
      (machine.act act).memory.WordAt machine.pc.toNat (.awaitKey x) := by
  by_cases cycles : act = .cycle
  · subst cycles
    have released := undisturbed.released _ List.mem_cons_self rfl
    rw [act_cycle, (cycle_of_released there released).2]
    exact ⟨⟨_, _, _, _, _, _, rfl⟩, there⟩
  · constructor
    · rcases machine.act_changes cycles with ⟨_, _, _, _, _, changed⟩
      exact ⟨_, _, _, _, _, _, changed⟩
    · exact there.of_bytes (undisturbed.kept _ List.mem_cons_self cycles)

/-- Acts that do not disturb a machine which waits leave it waiting, and each of their cycles waits. -/
theorem idles_afterActs {acts : List Act}
    (there : machine.memory.WordAt machine.pc.toNat (.awaitKey x))
    (undisturbed : Undisturbed machine.pc.toNat (machine.moments acts)) :
    Idled machine (machine.afterActs acts) ∧
      (machine.afterActs acts).memory.WordAt machine.pc.toNat (.awaitKey x) ∧
      ∀ moment ∈ machine.moments acts, moment.act = .cycle →
        moment.before.cycle.result = .ok (.waitingForKey x) := by
  induction acts generalizing machine with
  | nil => exact ⟨.refl machine, there, fun _ member => by cases member⟩
  | cons act rest ih =>
      rcases undisturbed_cons.mp undisturbed with ⟨first, later⟩
      rcases idles_act there first with ⟨idled, stays⟩
      have same := idled.pc_eq
      rw [← same] at stays later
      rcases ih stays later with ⟨idles, remains, waits⟩
      rw [same] at remains
      refine ⟨idled.trans idles, remains, ?_⟩
      rw [moments, List.forall_mem_cons]
      refine ⟨?_, waits⟩
      intro cycles
      have released := first.released _ List.mem_cons_self cycles
      exact (cycle_of_released there released).1

theorem not_writes_of_waits (waits : machine.cycle.result = .ok (.waitingForKey x)) :
    ¬ machine.Writes .cycle address value := by
  have found := Memory.opcodeAt_eq_ok_iff_wordAt.mpr (waits_of_cycle waits).1
  have carries : machine.succeeds? = some (.waitForKey x) := by
    simp only [succeeds?, waits, found, ofOpcode?_awaitKey]
  intro writes
  cases writes with
  | registers met | digits met => cases carries.symm.trans met

/-- A machine waits for a key exactly on the instruction that asks for one while no key is pressed,
and the cycle that waits changes nothing but the opcode that was fetched. Whatever a host does then,
as long as no cycle finds a key pressed and the two bytes of the instruction stay, every cycle waits
at the same place, only a load changes memory, and a frame is one cycle and one tick. The first cycle
that finds a key pressed goes on with the lowest one. -/
theorem waiting_resumes (machine : Machine) (x : Register) :
    (machine.cycle.result = .ok (.waitingForKey x) ↔
      machine.memory.WordAt machine.pc.toNat (.awaitKey x) ∧
        ∀ key, machine.keypad.isPressed key = false) ∧
    (machine.cycle.result = .ok (.waitingForKey x) →
      machine.cycle.machine = { machine with opcode := .awaitKey x } ∧
      ∀ requests,
        let history := machine.moments (machine.actsAll requests)
        let last := machine.afterAll requests
        Undisturbed machine.pc.toNat history →
          (∀ moment ∈ history, moment.act = .cycle →
            moment.before.cycle.result = .ok (.waitingForKey x)) ∧
          Idled machine last ∧
          (∀ address, last.memory.byte? address ≠ machine.memory.byte? address →
            ∃ moment ∈ history, moment.act ≠ .cycle ∧ ∃ value, moment.Writes address value) ∧
          ((∀ key, last.keypad.isPressed key = false) → ∀ limit,
            last.runFrame (limit + 1) =
              ⟨.ok (.waitingForKey x), last.cycle.machine.tick.machine,
                last.cycle.log ++ last.cycle.machine.tick.log⟩) ∧
          ((∃ key, last.keypad.isPressed key = true) → ∃ key, Resumes last x key)) := by
  constructor
  · constructor
    · exact waits_of_cycle
    · intro still
      exact (cycle_of_released still.1 still.2).1
  · intro waits
    rcases waits_of_cycle waits with ⟨there, released⟩
    refine ⟨(cycle_of_released there released).2, ?_⟩
    intro requests history last undisturbed
    rcases idles_afterActs there undisturbed with ⟨idled, remains, still⟩
    rw [afterActs_actsAll] at idled remains
    rw [← idled.pc_eq] at remains
    refine ⟨still, idled, ?_, runFrame_of_released remains, resumes_of_pressed remains⟩
    intro address changed
    rw [show last = machine.afterActs (machine.actsAll requests) from
      (afterActs_actsAll machine requests).symm] at changed
    rcases exists_writes_of_ne changed with ⟨moment, member, value, writes⟩
    refine ⟨moment, member, ?_, value, writes⟩
    intro cycles
    have quiet := still moment member cycles
    rw [Moment.Writes, cycles] at writes
    exact not_writes_of_waits quiet writes

set_option maxRecDepth 8000 in
theorem waiting_resumes_of_frame_and_load :
    ∃ start : Machine, build .standard .zeroKeyed = .ok start ∧
      let machine := start.afterAll [.load [0xF5, 0x0A] 0x200]
      let requests := [.tick, .frame 3, .takeRedraw, .load [1, 2] 0x300, .setKey 7 true]
      machine.cycle.result = .ok (.waitingForKey 5) ∧
        Undisturbed machine.pc.toNat (machine.moments (machine.actsAll requests)) ∧
        Resumes (machine.afterAll requests) 5 7 := by
  have built := build_standard .zeroKeyed
  refine ⟨_, built, ?_⟩
  intro machine requests
  have seen : (machine.memory.byte? machine.pc.toNat = some 0xF5 ∧
      machine.memory.byte? (machine.pc.toNat + 1) = some 0x0A) ∧
      (∀ key, machine.keypad.isPressed key = false) ∧
      (∀ moment ∈ machine.moments (machine.actsAll requests), moment.act = .cycle →
        ∀ key, moment.before.keypad.isPressed key = false) ∧
      (∀ moment ∈ machine.moments (machine.actsAll requests), moment.act ≠ .cycle →
        ∀ offset < 2, (moment.before.act moment.act).memory.byte? (machine.pc.toNat + offset) =
          moment.before.memory.byte? (machine.pc.toNat + offset)) ∧
      ∀ key, (machine.afterAll requests).keypad.isPressed key = decide (key = 7) := by
    decide +kernel
  rcases seen with ⟨⟨highAt, lowAt⟩, released, quiet, kept, last⟩
  have waits : machine.cycle.result = .ok (.waitingForKey 5) :=
    (waiting_resumes machine 5).1.mpr ⟨⟨0xF5, 0x0A, highAt, lowAt, rfl⟩, released⟩
  have undisturbed : Undisturbed machine.pc.toNat (machine.moments (machine.actsAll requests)) := by
    refine ⟨quiet, ?_⟩
    intro moment member hosted address covered
    rcases covered with rfl | rfl
    · exact kept moment member hosted 0 (by decide)
    · exact kept moment member hosted 1 (by decide)
  refine ⟨waits, undisturbed, ?_⟩
  rcases (waiting_resumes machine 5).2 waits with ⟨_, rests⟩
  rcases rests requests undisturbed with ⟨_, _, _, _, resumes⟩
  rcases resumes ⟨7, last 7⟩ with ⟨key, goesOn⟩
  have only : key = 7 := by
    have pressed := goesOn.pressed
    rw [last] at pressed
    exact of_decide_eq_true pressed
  rw [only] at goesOn
  exact goesOn

end Machine

end Chip8
