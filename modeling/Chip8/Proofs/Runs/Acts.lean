import Chip8.Machine.Session

/-!
# Acts

A request may stand for many steps: a frame runs cycles and then ticks. An act is a request that
does one thing only. Every request comes down to a list of acts, so a run of requests passes through
the machines of a run of acts, those in the middle of its frames included. What is to hold at every
point of every run is therefore stated and proved for acts.

`afterActs_actsAll` says that requests and their acts lead to the same machine, and
`Reachable.of_invariant` that what building gives and every act keeps holds of all machines that a
host can bring about.
-/

namespace Chip8

/-- A request that does one thing only. -/
inductive Act where
  | loadRom (rom : Rom)
  | load (bytes : List UInt8) (start : UInt16)
  | cycle
  | tick
  | setKey (key : UInt8) (pressed : Bool)
  | releaseKeys
  | takeRedraw
  deriving DecidableEq, Repr

def Act.request : Act → Request
  | .loadRom rom => .loadRom rom
  | .load bytes start => .load bytes start
  | .cycle => .cycle
  | .tick => .tick
  | .setKey key pressed => .setKey key pressed
  | .releaseKeys => .releaseKeys
  | .takeRedraw => .takeRedraw

/-- An act together with the machine that it was done on. -/
structure Moment where
  before : Machine
  act : Act

namespace Machine

def act (machine : Machine) (act : Act) : Machine :=
  (machine.perform act.request).machine

def afterActs (machine : Machine) (acts : List Act) : Machine :=
  acts.foldl act machine

/-- Acts done one after the other, each with the machine that it was done on. -/
def moments (machine : Machine) : List Act → List Moment
  | [] => []
  | act :: rest => ⟨machine, act⟩ :: (machine.act act).moments rest

/-- The acts of a frame: cycles for as long as instructions are executed, then a tick, which is
left out when the last cycle failed. -/
def frameActs (machine : Machine) : (limit : Nat) → List Act
  | 0 => [.tick]
  | limit + 1 =>
      .cycle :: match machine.cycle.result with
        | .ok .executed => machine.cycle.machine.frameActs limit
        | .ok (.waitingForKey _) => [.tick]
        | .error _ => []

/-- The acts that a request comes down to. -/
def acts (machine : Machine) : Request → List Act
  | .loadRom rom => [.loadRom rom]
  | .load bytes start => [.load bytes start]
  | .cycle => [.cycle]
  | .frame limit => machine.frameActs limit
  | .tick => [.tick]
  | .setKey key pressed => [.setKey key pressed]
  | .releaseKeys => [.releaseKeys]
  | .takeRedraw => [.takeRedraw]

/-- The acts that requests met one after the other come down to. -/
def actsAll (machine : Machine) : List Request → List Act
  | [] => []
  | request :: rest => machine.acts request ++ (machine.perform request).machine.actsAll rest

@[simp] theorem afterActs_nil (machine : Machine) : machine.afterActs [] = machine := rfl

@[simp] theorem afterActs_cons (machine : Machine) (act : Act) (rest : List Act) :
    machine.afterActs (act :: rest) = (machine.act act).afterActs rest := rfl

@[simp] theorem afterActs_append (machine : Machine) (first second : List Act) :
    machine.afterActs (first ++ second) = (machine.afterActs first).afterActs second := by
  simp only [afterActs, List.foldl_append]

theorem moments_append (machine : Machine) (first second : List Act) :
    machine.moments (first ++ second) =
      machine.moments first ++ (machine.afterActs first).moments second := by
  induction first generalizing machine with
  | nil => rfl
  | cons act rest ih => simp only [List.cons_append, moments, afterActs_cons, ih]

@[simp] theorem act_cycle (machine : Machine) : machine.act .cycle = machine.cycle.machine := rfl

theorem afterActs_frameActs (machine : Machine) (limit : Nat) :
    machine.afterActs (machine.frameActs limit) = (machine.runFrame limit).machine := by
  induction limit generalizing machine with
  | zero => rfl
  | succ limit ih =>
      simp only [frameActs, afterActs_cons, act_cycle, runFrame_succ]
      cases machine.cycle.result with
      | error fault => rfl
      | ok progress =>
          cases progress with
          | executed => exact ih machine.cycle.machine
          | waitingForKey register => rfl

theorem afterActs_acts (machine : Machine) (request : Request) :
    machine.afterActs (machine.acts request) = (machine.perform request).machine := by
  cases request with
  | frame limit => exact machine.afterActs_frameActs limit
  | _ => rfl

/-- Requests lead where their acts lead. -/
theorem afterActs_actsAll (machine : Machine) (requests : List Request) :
    machine.afterActs (machine.actsAll requests) = machine.afterAll requests := by
  induction requests generalizing machine with
  | nil => rfl
  | cons request rest ih =>
      rw [actsAll, afterActs_append, afterActs_acts, ih]
      rfl

/-- A frame is the cycles of its loop and behind them one tick, which a frame that fails leaves
out. -/
theorem frameActs_eq (machine : Machine) (limit : Nat) :
    machine.frameActs limit =
      List.replicate (machine.run limit).cycles .cycle ++
        match (machine.runFrame limit).result with
        | .ok _ => [.tick]
        | .error _ => [] := by
  induction limit generalizing machine with
  | zero => rfl
  | succ limit ih =>
      simp only [frameActs, run_succ, runFrame_succ]
      cases machine.cycle.result with
      | error fault => rfl
      | ok progress =>
          cases progress with
          | executed => exact congrArg (Act.cycle :: ·) (ih machine.cycle.machine)
          | waitingForKey register => rfl

/-- A request is one of its own acts, or stands for cycles and a tick. -/
theorem mem_acts {machine : Machine} {request : Request} {act : Act}
    (member : act ∈ machine.acts request) : act.request = request ∨ act = .cycle ∨ act = .tick := by
  cases request with
  | frame limit =>
      rw [acts, frameActs_eq, List.mem_append, List.mem_replicate] at member
      rcases member with ⟨_, cycles⟩ | last
      · exact .inr (.inl cycles)
      · split at last
        next => exact .inr (.inr (List.mem_singleton.mp last))
        next => cases last
  | _ =>
      cases List.mem_singleton.mp member
      exact .inl rfl

theorem mem_actsAll {machine : Machine} {requests : List Request} {act : Act}
    (member : act ∈ machine.actsAll requests) :
    act.request ∈ requests ∨ act = .cycle ∨ act = .tick := by
  induction requests generalizing machine with
  | nil => cases member
  | cons request rest ih =>
      rw [actsAll, List.mem_append] at member
      rcases member with first | later
      · rcases mem_acts first with rfl | framed
        · exact .inl List.mem_cons_self
        · exact .inr framed
      · exact (ih later).imp_left (List.mem_cons_of_mem request)

/-- What every act keeps holds after any acts. -/
theorem afterActs_induction {holds : Machine → Prop}
    (kept : ∀ machine act, holds machine → holds (machine.act act))
    {machine : Machine} (start : holds machine) (acts : List Act) :
    holds (machine.afterActs acts) := by
  induction acts generalizing machine with
  | nil => exact start
  | cons act rest ih => exact ih (kept machine act start)

/-- What every act keeps holds before each of any acts. -/
theorem moments_induction {holds : Machine → Prop}
    (kept : ∀ machine act, holds machine → holds (machine.act act))
    {machine : Machine} (start : holds machine) (acts : List Act) :
    ∀ moment ∈ machine.moments acts, holds moment.before := by
  induction acts generalizing machine with
  | nil => simp [moments]
  | cons act rest ih =>
      rw [moments, List.forall_mem_cons]
      exact ⟨start, ih (kept machine act start)⟩

/-- What every act keeps holds after each of any requests. -/
theorem performAll_induction {holds : Machine → Prop}
    (kept : ∀ machine act, holds machine → holds (machine.act act))
    {machine : Machine} (start : holds machine) (requests : List Request) :
    ∀ reply ∈ machine.performAll requests, holds reply.machine := by
  induction requests generalizing machine with
  | nil => simp [performAll]
  | cons request rest ih =>
      have first : holds (machine.perform request).machine := by
        rw [← afterActs_acts]
        exact afterActs_induction kept start _
      rw [performAll, List.forall_mem_cons]
      exact ⟨first, ih first⟩

/-! ## Cycles that fail -/

section Failing

variable {machine : Machine} {moment : Moment} {fault : Fault}

theorem runFrame_of_failed {limit : Nat}
    (inside : moment ∈ machine.moments (machine.frameActs limit))
    (cycles : moment.act = .cycle) (failed : moment.before.cycle.result = .error fault) :
    (machine.runFrame limit).result = .error fault := by
  induction limit generalizing machine with
  | zero =>
      cases List.mem_singleton.mp inside
      cases cycles
  | succ limit ih =>
      rw [runFrame_succ]
      rcases List.mem_cons.mp inside with rfl | later
      · simp only [failed]
      · simp only [act_cycle] at later
        cases result : machine.cycle.result with
        | error first =>
            simp only [result] at later
            cases later
        | ok progress =>
            simp only [result] at later
            cases progress with
            | executed => simp only [result, ih later]
            | waitingForKey register =>
                cases List.mem_singleton.mp later
                cases cycles

theorem perform_of_failed {request : Request}
    (inside : moment ∈ machine.moments (machine.acts request))
    (cycles : moment.act = .cycle) (failed : moment.before.cycle.result = .error fault) :
    (machine.perform request).result = .error fault := by
  cases request with
  | frame limit =>
      exact Reply.result_map_eq_error_iff.mpr (runFrame_of_failed inside cycles failed)
  | cycle =>
      cases List.mem_singleton.mp inside
      exact Reply.result_map_eq_error_iff.mpr failed
  | _ =>
      cases List.mem_singleton.mp inside
      cases cycles

/-- A fault of a cycle is the result of the request that made the cycle. -/
theorem performAll_of_failed {requests : List Request}
    (inside : moment ∈ machine.moments (machine.actsAll requests))
    (cycles : moment.act = .cycle) (failed : moment.before.cycle.result = .error fault) :
    ∃ reply ∈ machine.performAll requests, reply.result = .error fault := by
  induction requests generalizing machine with
  | nil => cases inside
  | cons request rest ih =>
      rw [actsAll, moments_append, List.mem_append, afterActs_acts] at inside
      rcases inside with first | later
      · exact ⟨_, List.mem_cons_self, perform_of_failed first cycles failed⟩
      · rcases ih later with ⟨reply, member, result⟩
        exact ⟨reply, List.mem_cons_of_mem _ member, result⟩

end Failing

/-! ## Acts of the host -/

/-- What a host does between cycles: the act and the reply to it. An act that is refused leaves the
machine as it was, and any other changes the part that it is for. -/
inductive Hosted (before : Machine) : Act → Reply Answer → Prop where
  | rom {rom : Rom} (small : rom.size ≤ before.config.room)
      (inside : Memory.Fits before.config.programStart rom.bytes.length) :
      Hosted before (.loadRom rom)
        ⟨.ok .done,
          { before with
            memory := before.memory.write before.config.programStart.toNat rom.bytes },
          [.romLoaded rom.size]⟩
  | refusedRom {rom : Rom} {fault : Fault} : Hosted before (.loadRom rom) (.refused before fault)
  | load {bytes : List UInt8} {start : UInt16} (inside : Memory.Fits start bytes.length) :
      Hosted before (.load bytes start)
        (.done { before with memory := before.memory.write start.toNat bytes } .done)
  | refusedLoad {bytes : List UInt8} {start : UInt16} {fault : Fault} :
      Hosted before (.load bytes start) (.refused before fault)
  | tick :
      Hosted before .tick
        ⟨.ok .done, { before with registers := before.registers.tick },
          [.ticked before.registers.tick.delay before.registers.tick.sound]⟩
  | setKey {number : UInt8} {key : Key} {pressed : Bool} (named : number.toNat = key.val) :
      Hosted before (.setKey number pressed)
        (.done { before with keypad := before.keypad.set key pressed } .done)
  | refusedKey {number : UInt8} {pressed : Bool} {fault : Fault} :
      Hosted before (.setKey number pressed) (.refused before fault)
  | releaseKeys : Hosted before .releaseKeys (.done { before with keypad := .released } .done)
  | takeRedraw :
      Hosted before .takeRedraw (.done { before with redraw := false } (.redraw before.redraw))

/-- Every act but a cycle is one of the acts of a host. -/
theorem hosted (machine : Machine) {act : Act} (other : act ≠ .cycle) :
    Hosted machine act (machine.perform act.request) := by
  cases act with
  | cycle => exact absurd rfl other
  | load bytes start =>
      simp only [Act.request, perform, load_eq]
      split
      next inside => exact .load inside
      next => exact .refusedLoad
  | loadRom rom =>
      simp only [Act.request, perform, loadRom_eq]
      split
      next => exact .refusedRom
      next small =>
        split
        next inside => exact .rom (Nat.le_of_not_lt small) inside
        next => exact .refusedRom
  | setKey number pressed =>
      simp only [Act.request, perform]
      by_cases inside : number.toNat < 16
      · have named : number.toNat = (⟨number.toNat, inside⟩ : Key).val := rfl
        rw [setKey_of_named named]
        exact .setKey named
      · rw [setKey_of_unnamed (Nat.le_of_not_lt inside)]
        exact .refusedKey
  | tick => exact .tick
  | releaseKeys => exact .releaseKeys
  | takeRedraw => exact .takeRedraw

/-- What a host does between cycles reaches only memory, the timers, the keypad and the redraw
flag. -/
theorem act_changes (machine : Machine) {act : Act} (other : act ≠ .cycle) :
    ∃ memory delay sound keypad redraw,
      machine.act act = { machine with
        memory, keypad, redraw, registers := { machine.registers with delay, sound } } := by
  have way := machine.hosted other
  rw [Machine.act]
  generalize machine.perform act.request = reply at way ⊢
  cases way with
  | _ => exact ⟨_, _, _, _, _, rfl⟩

/-! ## Machines that a host can bring about -/

/-- The machines that requests bring about, starting from one that was built. -/
inductive Reachable (config : Config) : Machine → Prop where
  | built {source : Random.Source} {machine : Machine}
      (built : build config source = .ok machine) : Reachable config machine
  | performed {machine : Machine} (request : Request) (before : Reachable config machine) :
      Reachable config (machine.perform request).machine

/-- The usual layout is in order, so machines are built from it. -/
theorem build_standard (source : Random.Source) :
    build .standard source =
      .ok (initial .standard (Memory.blank.write 0x050 Font.bytes) source) := rfl

namespace Reachable

variable {config : Config} {machine : Machine}

theorem afterAll (reached : Reachable config machine) (requests : List Request) :
    Reachable config (machine.afterAll requests) := by
  induction requests generalizing machine with
  | nil => exact reached
  | cons request rest ih => exact ih (.performed request reached)

/-- What building gives and every act keeps holds of every machine that is reached. -/
theorem of_invariant {holds : Machine → Prop} (reached : Reachable config machine)
    (start : ∀ source machine, build config source = .ok machine → holds machine)
    (kept : ∀ machine act, holds machine → holds (machine.act act)) : holds machine := by
  induction reached with
  | built built => exact start _ _ built
  | performed request _ ih =>
      rw [← afterActs_acts]
      exact afterActs_induction kept ih _

end Reachable

end Machine

end Chip8
