import Chip8.Proofs.Runs.Acts

/-!
# Two machines in lockstep

Two machines that differ only in what does not matter to them go on side by side: they meet a request
alike and differ afterwards as they did before. What matters is said by a relation of machines, and by
one of logs for what they report. `Lockstep` asks of these relations that they stand what a host does
between cycles, and `Lockstep.perform` follows them through any request then. Whether they stand a cycle
may depend on the instruction, so this is asked only of the cycles that the request makes.
-/

namespace Chip8

namespace Machine

/-- Two requests come to the same and leave machines that are related, and what they report is
related. -/
structure Reply.Alike {α : Type} (related : Machine → Machine → Prop)
    (tells : List Event → List Event → Prop) (left right : Reply α) : Prop where
  result : left.result = right.result
  machine : related left.machine right.machine
  log : tells left.log right.log

/-- A relation of machines that is kept by what a host does to both of them, and one of logs that
comes with it. -/
structure Lockstep (related : Machine → Machine → Prop)
    (tells : List Event → List Event → Prop) : Prop where
  start_eq {left right : Machine} (start : related left right) :
    left.config.programStart = right.config.programStart
  write {left right : Machine} (start : related left right) (address : Nat) (bytes : List UInt8) :
    related { left with memory := left.memory.write address bytes }
      { right with memory := right.memory.write address bytes }
  press {left right : Machine} (start : related left right) (change : Keypad → Keypad) :
    related { left with keypad := change left.keypad } { right with keypad := change right.keypad }
  tick {left right : Machine} (start : related left right) :
    left.tick.Alike related tells right.tick
  same (log : List Event) : tells log log
  append {first second third fourth : List Event} (earlier : tells first second)
    (later : tells third fourth) : tells (first ++ third) (second ++ fourth)

variable {related : Machine → Machine → Prop} {tells : List Event → List Event → Prop}
variable {left right : Machine}

theorem Reply.Alike.map {α β : Type} {left right : Reply α} (alike : left.Alike related tells right)
    (f : α → β) : (left.map f).Alike related tells (right.map f) :=
  ⟨congrArg (Except.map f) alike.result, alike.machine, alike.log⟩

end Machine

/-- A cycle of the moment comes to the same on every machine that is related to the one of the
moment. -/
def Moment.Follows (moment : Moment) (related : Machine → Machine → Prop)
    (tells : List Event → List Event → Prop) : Prop :=
  moment.act = .cycle → ∀ other, related moment.before other →
    moment.before.cycle.Alike related tells other.cycle

namespace Machine.Lockstep

variable {related : Machine → Machine → Prop} {tells : List Event → List Event → Prop}
variable {left right : Machine}

theorem load (steps : Lockstep related tells) (start : related left right) (bytes : List UInt8)
    (address : UInt16) : (left.load bytes address).Alike related tells (right.load bytes address) := by
  rw [load_eq, load_eq]
  split
  next => exact ⟨rfl, steps.write start _ _, steps.same _⟩
  next => exact ⟨rfl, start, steps.same _⟩

theorem loadRom (steps : Lockstep related tells) (start : related left right) (rom : Rom) :
    (left.loadRom rom).Alike related tells (right.loadRom rom) := by
  have room : left.config.room = right.config.room := by
    rw [Config.room, steps.start_eq start, Config.room]
  rw [loadRom_eq, loadRom_eq, room, steps.start_eq start]
  dsimp only
  split
  next => exact ⟨rfl, start, steps.same _⟩
  next =>
    split
    next => exact ⟨rfl, steps.write start _ _, steps.same _⟩
    next => exact ⟨rfl, start, steps.same _⟩

theorem setKey (steps : Lockstep related tells) (start : related left right) (number : UInt8)
    (pressed : Bool) :
    (left.setKey number pressed).Alike related tells (right.setKey number pressed) := by
  simp only [Machine.setKey]
  split
  next key _ => exact ⟨rfl, steps.press start (·.set key pressed), steps.same _⟩
  next => exact ⟨rfl, start, steps.same _⟩

/-- Frames are in lockstep if their cycles are. -/
theorem runFrame (steps : Lockstep related tells) (start : related left right) {limit : Nat}
    (follows : ∀ moment ∈ left.moments (left.frameActs limit), moment.Follows related tells) :
    (left.runFrame limit).Alike related tells (right.runFrame limit) := by
  induction limit generalizing left right with
  | zero => exact ⟨rfl, (steps.tick start).machine, (steps.tick start).log⟩
  | succ limit ih =>
      rw [frameActs, moments, List.forall_mem_cons] at follows
      rcases follows with ⟨first, later⟩
      have cycles : left.cycle.Alike related tells right.cycle := first rfl right start
      simp only [runFrame_succ, ← cycles.result]
      cases result : left.cycle.result with
      | error fault => exact ⟨rfl, cycles.machine, cycles.log⟩
      | ok progress =>
          cases progress with
          | waitingForKey register =>
              have ticks := steps.tick cycles.machine
              exact ⟨rfl, ticks.machine, steps.append cycles.log ticks.log⟩
          | executed =>
              rw [result] at later
              have rest := ih cycles.machine later
              exact ⟨rest.result, rest.machine, steps.append cycles.log rest.log⟩

/-- Related machines meet a request alike if they do so with the cycles that it makes, and with the
question whether to redraw, which is the only one that a host asks. -/
theorem perform (steps : Lockstep related tells) (start : related left right) {request : Request}
    (follows : ∀ moment ∈ left.moments (left.acts request), moment.Follows related tells)
    (asks : request = .takeRedraw → left.takeRedraw.Alike related tells right.takeRedraw) :
    (left.perform request).Alike related tells (right.perform request) := by
  cases request with
  | loadRom rom => exact (steps.loadRom start rom).map _
  | load bytes address => exact (steps.load start bytes address).map _
  | cycle => exact (follows _ List.mem_cons_self rfl right start).map _
  | frame limit => exact (steps.runFrame start follows).map _
  | tick => exact (steps.tick start).map _
  | setKey number pressed => exact (steps.setKey start number pressed).map _
  | releaseKeys => exact ⟨rfl, steps.press start fun _ => .released, steps.same _⟩
  | takeRedraw => exact (asks rfl).map _

end Machine.Lockstep

end Chip8
