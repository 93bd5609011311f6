import Chip8.Machine.Cycle

/-!
# Frames

A frame is a number of cycles followed by one tick of the timers. The cycles end early when one of
them waits for a key or fails; after a failure the timers do not tick.

The main statements are `run_zero` and `run_succ`, which give a run of cycles step by step, and
`runFrame_succ`, which does the same for a frame.
-/

namespace Chip8.Machine

/-- How many times a second a host should tick the timers. -/
def timerFrequency : Nat := 60

/-- A usual number of cycles for a frame. -/
def cyclesPerFrame : Nat := 10

/-- A run of cycles: the last result, the machine after it, the events of all of its cycles, and
how many cycles there were. -/
structure Run where
  result : Except Fault Progress
  machine : Machine
  log : List Event
  cycles : Nat

/-- Cycle until `limit` cycles are done or one of them did not execute its instruction. The events
of the `cycles` cycles before are in `log`, the latest first. -/
def runFrom (machine : Machine) (log : List Event) (cycles : Nat) : (limit : Nat) → Run
  | 0 => ⟨.ok .executed, machine, log.reverse, cycles⟩
  | limit + 1 =>
      let reply := machine.cycle
      match reply.result with
      | .ok .executed => runFrom reply.machine (reply.log.reverse ++ log) (cycles + 1) limit
      | stopped => ⟨stopped, reply.machine, (reply.log.reverse ++ log).reverse, cycles + 1⟩

/-- Cycle until `limit` cycles are done or one of them did not execute its instruction. -/
def run (machine : Machine) (limit : Nat) : Run :=
  machine.runFrom [] 0 limit

/-- Count the timers down by one. -/
def tick (machine : Machine) : Reply Unit :=
  let registers := machine.registers.tick
  ⟨.ok (), { machine with registers }, [.ticked registers.delay registers.sound]⟩

/-- Run up to `limit` cycles and tick the timers, unless a cycle fails. -/
def runFrame (machine : Machine) (limit : Nat) : Reply Progress :=
  let run := machine.run limit
  match run.result with
  | .error fault => ⟨.error fault, run.machine, run.log⟩
  | .ok progress =>
      let ticked := run.machine.tick
      ⟨.ok progress, ticked.machine, run.log ++ ticked.log⟩

/-! ## Runs step by step -/

theorem runFrom_eq (machine : Machine) (log : List Event) (cycles limit : Nat) :
    machine.runFrom log cycles limit =
      { machine.run limit with
        log := log.reverse ++ (machine.run limit).log
        cycles := cycles + (machine.run limit).cycles } := by
  induction limit generalizing machine log cycles with
  | zero => simp [run, runFrom]
  | succ limit ih =>
      simp only [run, runFrom]
      split
      next executed =>
        rw [ih, ih _ (_ ++ []) (0 + 1)]
        simp
        omega
      next => simp

@[simp] theorem run_zero (machine : Machine) :
    machine.run 0 = ⟨.ok .executed, machine, [], 0⟩ := rfl

/-- A run goes on behind its first cycle if that executed its instruction, and is that cycle alone
otherwise. -/
theorem run_succ (machine : Machine) (limit : Nat) :
    machine.run (limit + 1) =
      match machine.cycle.result with
      | .ok .executed =>
          let rest := machine.cycle.machine.run limit
          ⟨rest.result, rest.machine, machine.cycle.log ++ rest.log, rest.cycles + 1⟩
      | stopped => ⟨stopped, machine.cycle.machine, machine.cycle.log, 1⟩ := by
  simp only [run, runFrom]
  split
  next executed =>
    rw [runFrom_eq, run]
    simp only [List.append_nil, List.reverse_reverse]
    congr 1
    omega
  next => simp

theorem runFrame_zero (machine : Machine) :
    machine.runFrame 0 = ⟨.ok .executed, machine.tick.machine, machine.tick.log⟩ := rfl

/-- A frame goes on behind its first cycle if that executed its instruction. Behind a cycle that
waits it ticks, and behind one that fails it ends. -/
theorem runFrame_succ (machine : Machine) (limit : Nat) :
    machine.runFrame (limit + 1) =
      let first := machine.cycle
      match first.result with
      | .ok .executed =>
          let rest := first.machine.runFrame limit
          ⟨rest.result, rest.machine, first.log ++ rest.log⟩
      | .ok (.waitingForKey register) =>
          ⟨.ok (.waitingForKey register), first.machine.tick.machine,
            first.log ++ first.machine.tick.log⟩
      | .error fault => ⟨.error fault, first.machine, first.log⟩ := by
  simp only [runFrame, run_succ]
  cases machine.cycle.result with
  | error fault => rfl
  | ok progress =>
      cases progress with
      | waitingForKey register => rfl
      | executed =>
          dsimp only
          split
          next => rfl
          next => simp only [List.append_assoc]

end Chip8.Machine
