import Mathlib.Control.Monad.Basic
import Chip8.Proofs.Runs.Acts

/-!
# Frames are runs of single cycles

A frame is told apart from cycles that a host runs one by one only by the tick at its end. `FrameEnds`
says where the cycles of a frame end in terms of single cycles: behind as many as the frame allows, or
behind the first that waits or fails. The frame leaves the machine that this many cycles leave, ticked
once unless the last of them failed, and has reported what they reported.

A frame whose first cycles all execute their instructions can be cut behind any of them, which is
`run_add`; all else about the loop of a frame follows from it.
-/

namespace Chip8.Machine

/-- The machine after a number of cycles, whatever each of them comes to. -/
def afterCycles (machine : Machine) (count : Nat) : Machine :=
  machine.afterActs (List.replicate count .cycle)

def cyclesLog (machine : Machine) : (count : Nat) → List Event
  | 0 => []
  | count + 1 => machine.cycle.log ++ machine.cycle.machine.cyclesLog count

/-- The first cycles of a machine, up to a number, all execute their instructions. -/
def ExecutesFor (machine : Machine) (count : Nat) : Prop :=
  ∀ earlier < count, (machine.afterCycles earlier).cycle.result = .ok .executed

/-- How many cycles a frame makes, and what the last of them comes to. -/
inductive FrameEnds (machine : Machine) (limit : Nat) : Nat → Except Fault Progress → Prop where
  /-- All cycles that the frame allows execute their instructions. -/
  | whole (executes : machine.ExecutesFor limit) : FrameEnds machine limit limit (.ok .executed)
  /-- The cycle behind `done` others is the first that waits or fails. -/
  | early {done : Nat} {result : Except Fault Progress} (below : done < limit)
      (executes : machine.ExecutesFor done)
      (last : (machine.afterCycles done).cycle.result = result)
      (stops : result ≠ .ok .executed) : FrameEnds machine limit (done + 1) result

variable {machine : Machine} {limit count first : Nat} {result : Except Fault Progress}

@[simp] theorem afterCycles_zero (machine : Machine) : machine.afterCycles 0 = machine := rfl

theorem afterCycles_succ (machine : Machine) (count : Nat) :
    machine.afterCycles (count + 1) = machine.cycle.machine.afterCycles count := rfl

/-- The cycles up to a number are those before the last of them, and the last. -/
theorem afterCycles_succ_last (machine : Machine) (count : Nat) :
    machine.afterCycles (count + 1) = (machine.afterCycles count).cycle.machine := by
  simp only [afterCycles, List.replicate_succ', afterActs_append, afterActs_cons, afterActs_nil,
    act_cycle]

theorem cyclesLog_succ_last (machine : Machine) (count : Nat) :
    machine.cyclesLog (count + 1) =
      machine.cyclesLog count ++ (machine.afterCycles count).cycle.log := by
  induction count generalizing machine with
  | zero => simp [cyclesLog]
  | succ count ih =>
      rw [cyclesLog, ih, cyclesLog, afterCycles_succ, List.append_assoc]

theorem executesFor_zero (machine : Machine) : machine.ExecutesFor 0 := by
  intro earlier below
  cases below

theorem executesFor_succ :
    machine.ExecutesFor (count + 1) ↔
      machine.cycle.result = .ok .executed ∧ machine.cycle.machine.ExecutesFor count := by
  constructor
  · intro executes
    refine ⟨executes 0 (Nat.zero_lt_succ count), ?_⟩
    intro earlier below
    exact executes (earlier + 1) (Nat.succ_lt_succ below)
  · intro executes earlier below
    cases earlier with
    | zero => exact executes.1
    | succ earlier => exact executes.2 earlier (Nat.lt_of_succ_lt_succ below)

/-! ## The loop of a frame -/

/-- A run whose first cycles all execute their instructions is these cycles and then the rest of it. -/
theorem run_add (executes : machine.ExecutesFor first) (rest : Nat) :
    machine.run (first + rest) =
      let later := (machine.afterCycles first).run rest
      ⟨later.result, later.machine, machine.cyclesLog first ++ later.log, first + later.cycles⟩ := by
  induction first generalizing machine with
  | zero => simp [cyclesLog]
  | succ first ih =>
      rcases executesFor_succ.mp executes with ⟨executed, executes⟩
      rw [Nat.succ_add, run_succ]
      simp only [executed, ih executes, afterCycles_succ, cyclesLog, List.append_assoc,
        Nat.add_right_comm]

theorem run_of_stopped (last : machine.cycle.result = result) (stops : result ≠ .ok .executed)
    (rest : Nat) :
    machine.run (rest + 1) = ⟨result, machine.cycle.machine, machine.cycle.log, 1⟩ := by
  rw [run_succ, last]
  split
  next executed => exact absurd rfl stops
  next => rfl

/-- The loop of a frame makes the cycles up to where the frame ends, and no others. -/
theorem run_of_frameEnds (ends : machine.FrameEnds limit count result) :
    machine.run limit = ⟨result, machine.afterCycles count, machine.cyclesLog count, count⟩ := by
  cases ends with
  | whole executes =>
      have cut := run_add executes 0
      simp only [Nat.add_zero, run_zero, List.append_nil] at cut
      exact cut
  | @early done result below executes last stops =>
      rcases Nat.exists_eq_add_of_lt below with ⟨rest, rfl⟩
      rw [Nat.add_assoc, run_add executes, run_of_stopped last stops, afterCycles_succ_last,
        cyclesLog_succ_last]

/-- Every frame ends somewhere. -/
theorem exists_frameEnds (machine : Machine) (limit : Nat) :
    ∃ count result, machine.FrameEnds limit count result := by
  induction limit with
  | zero => exact ⟨0, _, .whole machine.executesFor_zero⟩
  | succ limit ih =>
      rcases ih with ⟨count, result, ends⟩
      cases ends with
      | early below executes last stops =>
          exact ⟨_, _, .early (Nat.lt_succ_of_lt below) executes last stops⟩
      | whole executes =>
          by_cases executed : (machine.afterCycles limit).cycle.result = .ok .executed
          · refine ⟨_, _, .whole ?_⟩
            intro earlier below
            rcases Nat.lt_succ_iff_lt_or_eq.mp below with before | rfl
            · exact executes earlier before
            · exact executed
          · exact ⟨_, _, .early (Nat.lt_succ_self limit) executes rfl executed⟩

/-- A frame leaves what single cycles leave. It makes as many as it allows if all of these execute
their instructions, and otherwise those up to the first that waits or fails. If the last of them fails
the frame does, and does not tick; otherwise it comes to what the last cycle comes to and ticks once
behind it. A frame whose first cycles all execute their instructions is these cycles and then a frame
of the others. -/
theorem runFrame_refines_cycles (machine : Machine) :
    (∀ limit, ∃ count result, machine.FrameEnds limit count result) ∧
    (∀ limit count result, machine.FrameEnds limit count result →
      let last := machine.afterCycles count
      (machine.run limit).cycles = count ∧
        (∀ fault, result = .error fault →
          machine.runFrame limit = ⟨.error fault, last, machine.cyclesLog count⟩) ∧
        ∀ progress, result = .ok progress →
          machine.runFrame limit =
            ⟨.ok progress, last.tick.machine, machine.cyclesLog count ++ last.tick.log⟩) ∧
    ∀ first rest, machine.ExecutesFor first →
      let later := (machine.afterCycles first).runFrame rest
      machine.runFrame (first + rest) =
        ⟨later.result, later.machine, machine.cyclesLog first ++ later.log⟩ := by
  refine ⟨machine.exists_frameEnds, ?_, ?_⟩
  · intro limit count result ends last
    have made := run_of_frameEnds ends
    refine ⟨by rw [made], ?_, ?_⟩
    · intro fault failed
      subst failed
      rw [runFrame, made]
    · intro progress met
      subst met
      rw [runFrame, made]
  · intro first rest executes later
    simp only [runFrame, run_add executes, later]
    split
    next => rfl
    next => simp only [List.append_assoc]

set_option maxRecDepth 8000 in
theorem runFrame_refines_cycles_of_wait_and_return :
    ∃ start : Machine, build .standard .zeroKeyed = .ok start ∧
      let waits := start.afterAll [.load [0x60, 0x05, 0xF0, 0x15, 0xF5, 0x0A] 0x200]
      let fails := start.afterAll [.load [0x60, 0x05, 0xF0, 0x15, 0x00, 0xEE] 0x200]
      waits.FrameEnds 9 3 (.ok (.waitingForKey 5)) ∧
        waits.runFrame 9 =
          ⟨.ok (.waitingForKey 5), (waits.afterCycles 3).tick.machine,
            waits.cyclesLog 3 ++ (waits.afterCycles 3).tick.log⟩ ∧
        fails.FrameEnds 9 3 (.error .stackUnderflow) ∧
        fails.runFrame 9 =
          ⟨.error .stackUnderflow, fails.afterCycles 3, fails.cyclesLog 3⟩ ∧
        waits.ExecutesFor 2 ∧
        (waits.runFrame (2 + 7)).machine = ((waits.afterCycles 2).runFrame 7).machine ∧
        (waits.runFrame 9).machine.registers.delay = 4 ∧
        (fails.runFrame 9).machine.registers.delay = 5 := by
  have built := build_standard .zeroKeyed
  refine ⟨_, built, ?_⟩
  intro waits fails
  have seen : (∀ earlier < 2, (waits.afterCycles earlier).cycle.result = .ok .executed) ∧
      (waits.afterCycles 2).cycle.result = .ok (.waitingForKey 5) ∧
      (∀ earlier < 2, (fails.afterCycles earlier).cycle.result = .ok .executed) ∧
      (fails.afterCycles 2).cycle.result = .error .stackUnderflow ∧
      (waits.afterCycles 3).tick.machine.registers.delay = 4 ∧
      (fails.afterCycles 3).registers.delay = 5 := by
    decide +kernel
  rcases seen with ⟨beforeWait, wait, beforeFault, fault, ticked, unticked⟩
  have waitEnds : waits.FrameEnds 9 3 (.ok (.waitingForKey 5)) :=
    .early (by decide) beforeWait wait (by decide)
  have faultEnds : fails.FrameEnds 9 3 (.error .stackUnderflow) :=
    .early (by decide) beforeFault fault (by decide)
  rcases runFrame_refines_cycles waits with ⟨_, waitFrames, cut⟩
  rcases runFrame_refines_cycles fails with ⟨_, faultFrames, _⟩
  have waited := (waitFrames 9 3 _ waitEnds).2.2 _ rfl
  have failed := (faultFrames 9 3 _ faultEnds).2.1 _ rfl
  refine ⟨waitEnds, waited, faultEnds, failed, beforeWait, ?_, ?_, ?_⟩
  · rw [cut 2 7 beforeWait]
  · rw [waited]
    exact ticked
  · rw [failed]
    exact unticked

end Chip8.Machine
