import Mathlib.Control.Monad.Basic
import Chip8.Proofs.Machine.Cycles
import Chip8.Proofs.Runs.Lockstep

/-!
# What a machine only shows

The sound timer, the redraw flag and the opcode that was fetched last are there for a host to look at.
Programs set the first two and no instruction reads any of them, so machines that differ in nothing
else do the same for ever, whatever a host asks of them and however often it asks for a redraw.

Such machines agree, and agreeing is kept: `execute_muted` says so for one instruction,
`perform_agrees` for one request, and `afterAll_agrees` for every session. Machines agree if they are
equal once the three parts are forgotten, so that an instruction is looked at on one machine only.
-/

namespace Chip8.Machine

/-- Two machines are the same but for the sound timer, the redraw flag and the opcode that was fetched
last. -/
structure Agrees (left right : Machine) : Prop where
  config : left.config = right.config
  memory : left.memory = right.memory
  general : left.registers.general = right.registers.general
  index : left.registers.index = right.registers.index
  delay : left.registers.delay = right.registers.delay
  pc : left.pc = right.pc
  stack : left.stack = right.stack
  keypad : left.keypad = right.keypad
  screen : left.screen = right.screen
  random : left.random = right.random

/-- The machine as if no sound had been set, nothing drawn and nothing fetched. -/
def muted (machine : Machine) : Machine :=
  { machine with opcode := 0, redraw := false, registers := { machine.registers with sound := 0 } }

variable {left right : Machine}

theorem agrees_iff : left.Agrees right ↔ left.muted = right.muted := by
  constructor
  · intro agree
    simp only [muted, agree.config, agree.memory, agree.general, agree.index, agree.delay, agree.pc,
      agree.stack, agree.keypad, agree.screen, agree.random]
  · intro same
    exact {
      config := congrArg (·.config) same
      memory := congrArg (·.memory) same
      general := congrArg (·.registers.general) same
      index := congrArg (·.registers.index) same
      delay := congrArg (·.registers.delay) same
      pc := congrArg (·.pc) same
      stack := congrArg (·.stack) same
      keypad := congrArg (·.keypad) same
      screen := congrArg (·.screen) same
      random := congrArg (·.random) same }

namespace Agrees

theorem refl (machine : Machine) : machine.Agrees machine :=
  agrees_iff.mpr rfl

theorem symm (agree : left.Agrees right) : right.Agrees left :=
  agrees_iff.mpr (agrees_iff.mp agree).symm

theorem trans {middle : Machine} (agree : left.Agrees middle) (also : middle.Agrees right) :
    left.Agrees right :=
  agrees_iff.mpr ((agrees_iff.mp agree).trans (agrees_iff.mp also))

end Agrees

/-! ## Cycles -/

/-- What an execution comes to, as far as programs can tell. -/
def mutedOutcome (outcome : Progress × Machine) : Progress × Machine :=
  (outcome.1, outcome.2.muted)

/-- An instruction does the same whether or not what it cannot read is forgotten before it. -/
theorem execute_muted (machine : Machine) (instruction : Instruction) :
    (machine.muted.execute instruction).map mutedOutcome =
      (machine.execute instruction).map mutedOutcome := by
  cases instruction with
  | returnFromSubroutine =>
      simp only [execute, muted]
      cases machine.stack.pop <;> rfl
  | call nnn =>
      simp only [execute, muted]
      cases machine.stack.push machine.config.stackDepth machine.pc <;> rfl
  | draw x y n =>
      simp only [execute, drawSprite, muted]
      cases machine.memory.slice machine.registers.index n.val <;> rfl
  | skipIfPressed x | skipIfNotPressed x =>
      simp only [execute, keyIn, muted, v, Registers.get]
      cases Key.ofByte _ <;> rfl
  | storeBcd x =>
      simp only [execute, storeAtIndex, muted, v, Registers.get]
      cases machine.memory.load _ machine.registers.index <;> rfl
  | storeRegisters x =>
      simp only [execute, storeAtIndex, muted, Registers.upTo]
      cases machine.memory.load _ machine.registers.index <;> rfl
  | loadRegisters x =>
      simp only [execute, fetchRegisters, muted]
      cases machine.memory.slice machine.registers.index _ <;> rfl
  | waitForKey x =>
      simp only [execute, awaitKey, muted]
      cases machine.keypad.lowest? <;> rfl
  | addToIndex x =>
      cases flags : machine.config.flagsIndexOverflow with
      | true =>
          simp only [execute, addToIndex, muted, flags]
          rfl
      | false =>
          simp only [execute, addToIndex, muted, flags]
          rfl
  | _ => rfl

theorem execute_agrees (agree : left.Agrees right) (instruction : Instruction) :
    Alike Agrees (left.execute instruction) (right.execute instruction) := by
  have same : (left.execute instruction).map mutedOutcome =
      (right.execute instruction).map mutedOutcome := by
    rw [← execute_muted left, agrees_iff.mp agree, execute_muted right]
  generalize left.execute instruction = first, right.execute instruction = second at same ⊢
  cases first with
  | error fault =>
      cases second with
      | error other =>
          cases same
          exact .refused
      | ok outcome => cases same
  | ok outcome =>
      cases second with
      | error fault => cases same
      | ok other =>
          rcases outcome with ⟨progress, after⟩
          rcases other with ⟨_, also⟩
          simp only [Except.map, mutedOutcome, Except.ok.injEq, Prod.mk.injEq] at same
          rcases same with ⟨rfl, muted⟩
          exact .carried (agrees_iff.mpr muted)

theorem fetched_agrees (agree : left.Agrees right) (opcode : Opcode) :
    (left.fetched opcode).Agrees (right.fetched opcode) :=
  { agree with pc := congrArg (· + 2) agree.pc }

theorem cycle_agrees (agree : left.Agrees right) :
    left.cycle.Alike Agrees (fun _ _ => True) right.cycle := by
  have fetch : right.memory.opcodeAt right.pc = left.memory.opcodeAt left.pc := by
    rw [agree.memory, agree.pc]
  rcases cycle_alike agree fetch (fetched_agrees agree)
    fun opcode instruction _ _ => execute_agrees (fetched_agrees agree opcode) instruction
    with ⟨result, machine⟩
  exact ⟨result.symm, machine, trivial⟩

/-! ## Requests -/

/-- What a host does between cycles keeps machines in agreement, whatever they report. -/
theorem lockstep_agrees : Lockstep Agrees fun _ _ => True where
  start_eq agree := congrArg Config.programStart agree.config
  write agree address bytes := { agree with memory := congrArg (·.write address bytes) agree.memory }
  press agree change := { agree with keypad := congrArg change agree.keypad }
  tick agree := ⟨rfl, { agree with delay := congrArg Registers.countDown agree.delay }, trivial⟩
  same _ := trivial
  append _ _ := trivial

/-- Machines that agree meet every request but one for the redraw flag alike. -/
theorem perform_agrees (agree : left.Agrees right) {request : Request}
    (other : request ≠ .takeRedraw) :
    (left.perform request).Alike Agrees (fun _ _ => True) (right.perform request) :=
  lockstep_agrees.perform agree (fun _ _ _ _ also => cycle_agrees also)
    fun asks => absurd asks other

theorem takeRedraw_agrees (machine : Machine) :
    (machine.perform .takeRedraw).machine.Agrees machine :=
  agrees_iff.mpr rfl

/-! ## Sessions -/

/-- A session may as well leave out that it asks for the redraw flag. -/
theorem afterAll_agrees_filter (agree : left.Agrees right) (requests : List Request) :
    (left.afterAll requests).Agrees (right.afterAll (requests.filter (· ≠ .takeRedraw))) := by
  induction requests generalizing left right with
  | nil => exact agree
  | cons request rest ih =>
      by_cases polls : request = .takeRedraw
      · subst polls
        exact ih (left.takeRedraw_agrees.trans agree)
      · have kept : (request :: rest).filter (· ≠ .takeRedraw) =
            request :: rest.filter (· ≠ .takeRedraw) :=
          List.filter_cons_of_pos (decide_eq_true polls)
        rw [kept]
        exact ih (perform_agrees agree polls).machine

/-- Sessions that differ only in when they ask for the redraw flag leave machines that agree. -/
theorem afterAll_agrees (agree : left.Agrees right) {requests others : List Request}
    (same : requests.filter (· ≠ .takeRedraw) = others.filter (· ≠ .takeRedraw)) :
    (left.afterAll requests).Agrees (right.afterAll others) := by
  have first := afterAll_agrees_filter agree requests
  have second := afterAll_agrees_filter (.refl right) others
  rw [← same] at second
  exact first.trans second.symm

/-- What a machine only shows has no effect. Two machines that are the same but for the sound timer,
the redraw flag and the opcode that was fetched last stay so through any requests, and meet each of
them alike, other than one for the flag itself. This is still so if a host asks one of them for the
flag where it does not ask the other. -/
theorem outputs_unread (agree : left.Agrees right) :
    (∀ requests : List Request,
      (left.afterAll requests).Agrees (right.afterAll requests) ∧
        ∀ request ≠ .takeRedraw,
          ((left.afterAll requests).perform request).result =
            ((right.afterAll requests).perform request).result) ∧
    ∀ requests others : List Request,
      requests.filter (· ≠ .takeRedraw) = others.filter (· ≠ .takeRedraw) →
        (left.afterAll requests).Agrees (right.afterAll others) ∧
          ∀ request ≠ .takeRedraw,
            ((left.afterAll requests).perform request).result =
              ((right.afterAll others).perform request).result := by
  constructor
  · intro requests
    have after : (left.afterAll requests).Agrees (right.afterAll requests) :=
      afterAll_agrees agree rfl
    exact ⟨after, fun request other => (perform_agrees after other).result⟩
  · intro requests others same
    have after := afterAll_agrees agree same
    exact ⟨after, fun request other => (perform_agrees after other).result⟩

set_option maxRecDepth 8000 in
theorem outputs_unread_of_beeping :
    ∃ start : Machine, build .standard .zeroKeyed = .ok start ∧
      let beeping := { start with
        opcode := 0x1200, redraw := true, registers := { start.registers with sound := 9 } }
      let program := [0x00, 0xE0, 0xD0, 0x12, 0x00, 0xEE]
      let requests := [.load program 0x200, .tick, .cycle, .takeRedraw, .frame 1]
      let polling := [.load program 0x200, .takeRedraw, .tick, .cycle, .frame 1, .takeRedraw]
      start.Agrees beeping ∧
        (start.afterAll requests).Agrees (beeping.afterAll polling) ∧
        ((start.afterAll requests).perform .cycle).result = .error .stackUnderflow ∧
        ((beeping.afterAll polling).perform .cycle).result = .error .stackUnderflow ∧
        (start.afterAll requests).soundActive = false ∧
        (beeping.afterAll polling).soundActive = true ∧
        (start.afterAll requests).redraw = true ∧
        (beeping.afterAll polling).redraw = false := by
  let start := initial .standard (Memory.blank.write 0x050 Font.bytes) .zeroKeyed
  have built : build .standard .zeroKeyed = .ok start := build_standard _
  refine ⟨start, built, ?_⟩
  intro beeping program requests polling
  have agree : start.Agrees beeping := agrees_iff.mpr rfl
  have seen :
      ((start.afterAll requests).perform .cycle).result = .error .stackUnderflow ∧
        (start.afterAll requests).soundActive = false ∧
        (beeping.afterAll polling).soundActive = true ∧
        (start.afterAll requests).redraw = true ∧
        (beeping.afterAll polling).redraw = false := by
    decide +kernel
  rcases seen with ⟨refused, shown⟩
  rcases (outputs_unread agree).2 requests polling (by decide) with ⟨after, alike⟩
  exact ⟨agree, after, refused, (alike .cycle (by decide)).symm.trans refused, shown⟩

end Chip8.Machine
