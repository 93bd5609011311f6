import Chip8.Proofs.Runs.Acts

/-!
# Past the end of memory

A machine whose program counter has come to the last byte of memory, or past it, cannot fetch any more,
and nothing that a host does can bring it back: no request but a cycle moves the program counter, and no
load reaches the byte that is missing. Such a machine refuses every cycle with the same fault. What a
host can still change, memory by loads, the timers by ticks, the keys and the redraw flag, no program
will see.
-/

namespace Chip8

/-- Requests that put bytes into memory. -/
def Request.loads : Request → Bool
  | .loadRom _ | .load .. => true
  | _ => false

/-- Requests that tick the timers even where nothing can be fetched: a tick, and a frame that makes no
cycles. -/
def Request.ticks : Request → Bool
  | .tick | .frame 0 => true
  | _ => false

namespace Machine

/-- What requests leave of a machine that cannot fetch. All that a program works with is as it was, the
timers have counted down once for each tick, and memory is as the loads alone would have left it. -/
structure Stranded (before : Machine) (requests : List Request) (after : Machine) : Prop where
  pc_eq : after.pc = before.pc
  opcode_eq : after.opcode = before.opcode
  general_eq : after.registers.general = before.registers.general
  index_eq : after.registers.index = before.registers.index
  stack_eq : after.stack = before.stack
  screen_eq : after.screen = before.screen
  random_eq : after.random = before.random
  config_eq : after.config = before.config
  delay_eq : after.registers.delay.toNat =
    before.registers.delay.toNat - requests.countP Request.ticks
  sound_eq : after.registers.sound.toNat =
    before.registers.sound.toNat - requests.countP Request.ticks
  memory_eq : after.memory = (before.afterAll (requests.filter Request.loads)).memory

variable {machine left right : Machine} {request : Request} {requests : List Request}

/-! ## Loads by themselves -/

theorem machine_perform_of_loads (loads : request.loads = true) :
    (machine.perform request).machine =
      { machine with memory := (machine.perform request).machine.memory } := by
  cases request with
  | load bytes start =>
      simp only [perform, load_eq]
      split <;> rfl
  | loadRom rom =>
      simp only [perform, loadRom_eq]
      split
      next => rfl
      next => split <;> rfl
  | _ => cases loads

/-- What a load makes of memory depends on memory and the configuration only, and the configuration
stays. -/
theorem loaded_alike (loads : request.loads = true) (memory_eq : left.memory = right.memory)
    (config_eq : left.config = right.config) :
    (left.perform request).machine.memory = (right.perform request).machine.memory ∧
      (left.perform request).machine.config = (right.perform request).machine.config := by
  cases request with
  | load bytes start =>
      simp only [perform, load_eq, memory_eq]
      split
      next => exact ⟨rfl, config_eq⟩
      next => exact ⟨memory_eq, config_eq⟩
  | loadRom rom =>
      simp only [perform, loadRom_eq, memory_eq, config_eq]
      split
      next => exact ⟨memory_eq, config_eq⟩
      next =>
        split
        next => exact ⟨rfl, rfl⟩
        next => exact ⟨memory_eq, config_eq⟩
  | _ => cases loads

theorem memory_afterAll_loads (loads : ∀ request ∈ requests, request.loads = true)
    (memory_eq : left.memory = right.memory) (config_eq : left.config = right.config) :
    (left.afterAll requests).memory = (right.afterAll requests).memory := by
  induction requests generalizing left right with
  | nil => exact memory_eq
  | cons request rest ih =>
      rcases List.forall_mem_cons.mp loads with ⟨first, later⟩
      rcases loaded_alike first memory_eq config_eq with ⟨memory_eq, config_eq⟩
      exact ih later memory_eq config_eq

/-! ## A machine that cannot fetch -/

theorem cycle_of_past (past : 0xFFF ≤ machine.pc.toNat) :
    machine.cycle = .refused machine (.outOfBounds (max machine.pc.toNat 0x1000)) :=
  cycle_of_unfetched (Memory.opcodeAt_eq_error_iff.mpr ⟨Nat.succ_le_succ past, rfl⟩)

/-- So is a frame that makes cycles, and it does not tick either. -/
theorem runFrame_of_past (past : 0xFFF ≤ machine.pc.toNat) (limit : Nat) :
    machine.runFrame (limit + 1) =
      .refused machine (.outOfBounds (max machine.pc.toNat 0x1000)) := by
  rw [runFrame_succ, cycle_of_past past]
  rfl

/-- A request that does not tick leaves the timers and all that a program works with. -/
theorem stranded_of_unticked (unticked : request.ticks = false) {memory : Memory}
    (loaded : memory = (machine.afterAll ([request].filter Request.loads)).memory)
    (keypad : Keypad) (redraw : Bool) :
    Stranded machine [request] { machine with memory, keypad, redraw } := by
  have none : [request].countP Request.ticks = 0 := by
    simp only [List.countP_singleton, unticked, Bool.false_eq_true, if_false]
  exact
    { pc_eq := rfl
      opcode_eq := rfl
      general_eq := rfl
      index_eq := rfl
      stack_eq := rfl
      screen_eq := rfl
      random_eq := rfl
      config_eq := rfl
      delay_eq := by rw [none, Nat.sub_zero]
      sound_eq := by rw [none, Nat.sub_zero]
      memory_eq := loaded }

theorem stranded_of_tick (ticks : request.ticks = true)
    (loads : request.loads = false) : Stranded machine [request] machine.tick.machine := by
  have once : [request].countP Request.ticks = 1 := by
    simp only [List.countP_singleton, ticks, if_true]
  have none : [request].filter Request.loads = [] := by
    simp only [List.filter_cons, loads, Bool.false_eq_true, if_false, List.filter_nil]
  exact
    { pc_eq := rfl
      opcode_eq := rfl
      general_eq := rfl
      index_eq := rfl
      stack_eq := rfl
      screen_eq := rfl
      random_eq := rfl
      config_eq := rfl
      delay_eq := by
        rw [once]
        exact Registers.toNat_countDown _
      sound_eq := by
        rw [once]
        exact Registers.toNat_countDown _
      memory_eq := by
        rw [none]
        rfl }

/-- No request gets a machine on that cannot fetch. -/
theorem stranded_perform (past : 0xFFF ≤ machine.pc.toNat) (request : Request) :
    Stranded machine [request] (machine.perform request).machine := by
  cases request with
  | cycle =>
      simp only [perform, Reply.machine_map, cycle_of_past past]
      exact stranded_of_unticked rfl rfl _ _
  | frame limit =>
      cases limit with
      | zero => exact stranded_of_tick rfl rfl
      | succ limit =>
          simp only [perform, Reply.machine_map, runFrame_of_past past]
          exact stranded_of_unticked rfl rfl _ _
  | tick => exact stranded_of_tick rfl rfl
  | load | loadRom =>
      rw [machine_perform_of_loads rfl]
      exact stranded_of_unticked rfl rfl _ _
  | setKey number pressed =>
      have way := @hosted machine (.setKey number pressed) (by simp)
      simp only [Act.request] at way
      generalize machine.perform (.setKey number pressed) = reply at way ⊢
      cases way with
      | setKey | refusedKey => exact stranded_of_unticked rfl rfl _ _
  | releaseKeys | takeRedraw => exact stranded_of_unticked rfl rfl _ _

/-- What requests leave is stranded, if the first of them leaves it so and the others then do. -/
theorem Stranded.cons {after : Machine}
    (first : Stranded machine [request] (machine.perform request).machine)
    (later : Stranded (machine.perform request).machine requests after) :
    Stranded machine (request :: requests) after := by
  have memory_eq : after.memory =
      (machine.afterAll ((request :: requests).filter Request.loads)).memory := by
    rw [later.memory_eq, List.filter_cons]
    split
    next => rfl
    next other =>
      apply memory_afterAll_loads
      · intro load member
        exact (List.mem_filter.mp member).2
      · rw [first.memory_eq, List.filter_cons, if_neg other]
        rfl
      · exact first.config_eq
  exact
    { pc_eq := later.pc_eq.trans first.pc_eq
      opcode_eq := later.opcode_eq.trans first.opcode_eq
      general_eq := later.general_eq.trans first.general_eq
      index_eq := later.index_eq.trans first.index_eq
      stack_eq := later.stack_eq.trans first.stack_eq
      screen_eq := later.screen_eq.trans first.screen_eq
      random_eq := later.random_eq.trans first.random_eq
      config_eq := later.config_eq.trans first.config_eq
      delay_eq := by
        rw [later.delay_eq, first.delay_eq, Nat.sub_sub, ← List.countP_append,
          List.singleton_append]
      sound_eq := by
        rw [later.sound_eq, first.sound_eq, Nat.sub_sub, ← List.countP_append,
          List.singleton_append]
      memory_eq }

theorem stranded_afterAll (past : 0xFFF ≤ machine.pc.toNat) (requests : List Request) :
    Stranded machine requests (machine.afterAll requests) := by
  induction requests generalizing machine with
  | nil =>
      constructor <;> rfl
  | cons request rest ih =>
      have first := stranded_perform past request
      rw [← first.pc_eq] at past
      exact first.cons (ih past)

/-- An opcode cannot be fetched exactly where less than two bytes of memory are left. A machine that
has come there stays there, whatever a host does and wherever it loads to: every cycle, and every frame
that makes one, is refused with the same fault, changes nothing and reports nothing, and a frame without
cycles is a tick. -/
theorem stranded_past_memory (machine : Machine) :
    ((∃ fault, machine.memory.opcodeAt machine.pc = .error fault) ↔ 0xFFF ≤ machine.pc.toNat) ∧
    (0xFFF ≤ machine.pc.toNat → ∀ requests,
      let last := machine.afterAll requests
      let fault := .outOfBounds (max machine.pc.toNat 0x1000)
      Stranded machine requests last ∧
        last.perform .cycle = .refused last fault ∧
        (∀ limit, last.perform (.frame (limit + 1)) = .refused last fault) ∧
        last.perform (.frame 0) =
          ⟨.ok (.progress .executed), last.tick.machine, last.tick.log⟩) := by
  constructor
  · constructor
    · intro unfetched
      rcases unfetched with ⟨fault, unfetched⟩
      exact Nat.le_of_succ_le_succ (Memory.opcodeAt_eq_error_iff.mp unfetched).1
    · intro past
      exact ⟨_, Memory.opcodeAt_eq_error_iff.mpr ⟨Nat.succ_le_succ past, rfl⟩⟩
  · intro past requests last fault
    have stays := stranded_afterAll past requests
    have there : 0xFFF ≤ last.pc.toNat := by
      rw [stays.pc_eq]
      exact past
    have same : fault = .outOfBounds (max last.pc.toNat 0x1000) := by
      rw [stays.pc_eq]
    refine ⟨stays, ?_, ?_, rfl⟩
    · rw [perform, cycle_of_past there, same]
      rfl
    · intro limit
      rw [perform, runFrame_of_past there, same]
      rfl

set_option maxRecDepth 8000 in
theorem stranded_past_memory_of_jump :
    ∃ start : Machine, build .standard .zeroKeyed = .ok start ∧
      let machine := start.afterAll [.load [0x1F, 0xFF] 0x200, .cycle]
      let requests := [.load [0x00, 0xE0] 0x000, .frame 3, .tick, .load [0x12, 0x00] 0xFFE, .cycle]
      let last := machine.afterAll requests
      0xFFF ≤ machine.pc.toNat ∧
        Stranded machine requests last ∧
        last.perform (.frame 7) = .refused last (.outOfBounds 0x1000) := by
  have built := build_standard .zeroKeyed
  refine ⟨_, built, ?_⟩
  intro machine requests last
  have there : machine.pc.toNat = 0xFFF := by decide +kernel
  have past : 0xFFF ≤ machine.pc.toNat := Nat.le_of_eq there.symm
  rcases (stranded_past_memory machine).2 past requests with ⟨stays, _, frames, _⟩
  refine ⟨past, stays, ?_⟩
  have refused := frames 6
  rw [there] at refused
  exact refused

end Machine

end Chip8
