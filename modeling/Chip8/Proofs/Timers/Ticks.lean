import Chip8.Proofs.Machine.Cycles
import Chip8.Proofs.Machine.Transfers
import Chip8.Proofs.Runs.Acts
import Chip8.Proofs.Runs.Latest

/-!
# Timers measure ticks

Each timer has one instruction that sets it, and a tick counts both down as far as zero. Nothing else
touches them, so a timer always stands at the value that it was last set to less the ticks since. A
host ticks by asking for it, or by a frame that comes to its end, whose tick is behind all of its
cycles; a frame that fails does not tick, and neither do cycles that a host runs one by one.

`timer_act_of_set` and `timer_act_of_unset` say what one act makes of a timer,
`timer_afterActs_of_latest` and `timer_afterActs_of_silent` what a run makes of it, and `acts_of_ticks`
and `tick_not_mem_acts` which requests tick.
-/

namespace Chip8

/-- One of the two timers. -/
inductive Timer where
  | delay
  | sound
  deriving DecidableEq, Repr

/-- The instruction that sets a timer to a register: `Fx15` for the delay timer and `Fx18` for the
sound timer. -/
def Timer.setter : Timer → Register → Instruction
  | .delay => .setDelayTimer
  | .sound => .setSoundTimer

/-- What a timer stands at. -/
def Machine.timer (machine : Machine) : Timer → UInt8
  | .delay => machine.registers.delay
  | .sound => machine.registers.sound

/-- A cycle of the moment carries out the instruction that sets the timer, with this value in its
register. -/
def Timer.SetBy (timer : Timer) (moment : Moment) (value : UInt8) : Prop :=
  moment.act = .cycle ∧
    ∃ x, moment.before.succeeds? = some (timer.setter x) ∧ value = moment.before.v x

def Moment.ticks (moment : Moment) : Bool :=
  match moment.act with
  | .tick => true
  | _ => false

namespace Machine

/-- The request ticks the timers: it asks for a tick, or for a frame that does not fail. -/
def Ticks (machine : Machine) : Request → Prop
  | .tick => True
  | .frame limit => ∃ progress, (machine.runFrame limit).result = .ok progress
  | _ => False

variable {machine after : Machine} {instruction : Instruction} {progress : Progress}
variable {timer : Timer} {act : Act} {acts : List Act} {request : Request} {value : UInt8}

/-! ## What an act makes of a timer -/

/-- An instruction that is carried out leaves a timer alone, unless it is the one that sets it. -/
theorem timer_of_execute (met : machine.execute instruction = .ok (progress, after))
    (other : ∀ x, instruction ≠ timer.setter x) : after.timer timer = machine.timer timer := by
  cases carried_of_execute met with
  | transfer about =>
      rcases transferred_of_execute about met with ⟨registers, left, transferred⟩
      rw [left]
      cases transferred with
      | delay =>
          cases timer with
          | delay => exact absurd rfl (other _)
          | sound => rfl
      | sound =>
          cases timer with
          | delay => rfl
          | sound => exact absurd rfl (other _)
      | loaded => cases timer <;> simp only [timer, Registers.setFirst]
      | _ => cases timer <;> rfl
  | _ => cases timer <;> rfl

theorem timer_of_execute_setter {x : Register}
    (met : machine.execute (timer.setter x) = .ok (progress, after)) :
    after.timer timer = machine.v x := by
  cases timer <;> cases met <;> rfl

/-- A cycle leaves a timer alone, unless it carries out the instruction that sets it. -/
theorem timer_cycle (other : ∀ x, machine.succeeds? ≠ some (timer.setter x)) :
    machine.cycle.machine.timer timer = machine.timer timer := by
  have way := machine.cycled
  generalize machine.cycle.result = result, cycled : machine.cycle.machine = after at way ⊢
  cases way with
  | unfetched => rfl
  | unknown | refused => cases timer <;> rfl
  | carried found known met =>
      rw [succeeds?_of_met found known met] at other
      rw [timer_of_execute met fun x same => other x (congrArg some same)]
      cases timer <;> rfl

theorem timer_cycle_of_set {x : Register} (set : machine.succeeds? = some (timer.setter x)) :
    machine.cycle.machine.timer timer = machine.v x := by
  rcases result_of_succeeds set with ⟨progress, result⟩
  have way := machine.cycled
  rw [result] at way
  generalize machine.cycle.machine = after at way ⊢
  cases way with
  | carried found known met =>
      rw [succeeds?_of_met found known met] at set
      cases set
      rw [timer_of_execute_setter met]
      rfl

theorem timer_act_of_set (set : timer.SetBy ⟨machine, act⟩ value) :
    (machine.act act).timer timer = value := by
  rcases set with ⟨cycles, x, succeeds, rfl⟩
  cases cycles
  exact timer_cycle_of_set succeeds

theorem timer_tick (machine : Machine) (timer : Timer) :
    ((machine.act .tick).timer timer).toNat = (machine.timer timer).toNat - 1 := by
  cases timer <;> exact Registers.toNat_countDown _

/-- An act that does not set a timer counts it down if it is a tick, and leaves it alone otherwise. -/
theorem timer_act_of_unset (unset : ∀ value, ¬ timer.SetBy ⟨machine, act⟩ value) :
    ((machine.act act).timer timer).toNat =
      (machine.timer timer).toNat - if Moment.ticks ⟨machine, act⟩ then 1 else 0 := by
  by_cases cycles : act = .cycle
  · subst cycles
    rw [act_cycle, timer_cycle fun x set => unset _ ⟨rfl, x, set, rfl⟩]
    rfl
  · have way := machine.hosted cycles
    rw [Machine.act]
    generalize machine.perform act.request = reply at way ⊢
    cases way with
    | tick => exact timer_tick machine timer
    | _ => rfl

/-! ## What a run makes of a timer -/

/-- Acts that never set a timer count it down once for each tick among them. -/
theorem timer_afterActs_of_silent (silent : Silent timer.SetBy (machine.moments acts)) :
    ((machine.afterActs acts).timer timer).toNat =
      (machine.timer timer).toNat - (machine.moments acts).countP Moment.ticks := by
  induction acts generalizing machine with
  | nil => rfl
  | cons act rest ih =>
      rcases silent_cons.mp silent with ⟨unset, silent⟩
      rw [afterActs_cons, ih silent, timer_act_of_unset unset, moments, List.countP_cons,
        Nat.sub_sub, Nat.add_comm]

/-- After acts a timer stands at the value that the latest of them to set it set it to, less the ticks
since. -/
theorem timer_afterActs_of_latest {since : List Moment}
    (latest : Latest timer.SetBy (machine.moments acts) value since) :
    ((machine.afterActs acts).timer timer).toNat = value.toNat - since.countP Moment.ticks := by
  induction acts generalizing machine with
  | nil => exact absurd latest not_latest_nil
  | cons act rest ih =>
      rcases latest_cons.mp latest with later | ⟨rfl, set, silent⟩
      · exact ih later
      · rw [afterActs_cons, timer_afterActs_of_silent silent, timer_act_of_set set]

theorem silent_setBy {history : List Moment}
    (quiet : ∀ moment ∈ history, moment.act = .cycle →
      ∀ x, moment.before.succeeds? ≠ some (timer.setter x)) : Silent timer.SetBy history := by
  intro moment member value set
  rcases set with ⟨cycles, x, succeeds, _⟩
  exact quiet moment member cycles x succeeds

/-! ## Which requests tick -/

/-- A request that ticks does so once, behind whatever cycles it makes. -/
theorem acts_of_ticks (ticks : machine.Ticks request) :
    ∃ count, machine.acts request = List.replicate count .cycle ++ [.tick] := by
  cases request with
  | tick => exact ⟨0, rfl⟩
  | frame limit =>
      rcases ticks with ⟨progress, result⟩
      refine ⟨(machine.run limit).cycles, ?_⟩
      rw [acts, frameActs_eq, result]
  | _ => cases ticks

theorem tick_not_mem_acts (quiet : ¬ machine.Ticks request) : .tick ∉ machine.acts request := by
  cases request with
  | tick => exact absurd trivial quiet
  | frame limit =>
      rw [acts, frameActs_eq]
      cases result : (machine.runFrame limit).result with
      | ok progress => exact absurd ⟨progress, result⟩ quiet
      | error fault => simp
  | _ => simp [acts]

theorem soundActive_iff (machine : Machine) :
    machine.soundActive = true ↔ 0 < (machine.timer .sound).toNat := by
  rw [soundActive, decide_eq_true_iff, UInt8.lt_iff_toNat_lt]
  rfl

/-- A timer stands at the value that the latest cycle to set it set it to, less the ticks since, and
at zero if that would be less or if nothing has set it. A host should beep exactly while the sound
timer is above zero. A tick is asked for, or ends a frame that does not fail, behind all of its
cycles; no other request ticks. -/
theorem timers_count_ticks {config : Config} {source : Random.Source} {start : Machine}
    (built : build config source = .ok start) :
    (∀ requests timer,
      let history := start.moments (start.actsAll requests)
      let last := start.afterAll requests
      (∀ value since, Latest timer.SetBy history value since →
        (last.timer timer).toNat = value.toNat - since.countP Moment.ticks) ∧
        (Silent timer.SetBy history → last.timer timer = 0)) ∧
    (∀ machine : Machine, machine.soundActive = true ↔ 0 < (machine.timer .sound).toNat) ∧
    ∀ (machine : Machine) (request : Request),
      (machine.Ticks request →
        ∃ count, machine.acts request = List.replicate count .cycle ++ [.tick]) ∧
        (¬ machine.Ticks request → .tick ∉ machine.acts request) := by
  refine ⟨?_, soundActive_iff, fun machine request => ⟨acts_of_ticks, tick_not_mem_acts⟩⟩
  intro requests timer history last
  have led : last = start.afterActs (start.actsAll requests) :=
    (start.afterActs_actsAll requests).symm
  rw [led]
  refine ⟨fun value since latest => timer_afterActs_of_latest latest, ?_⟩
  intro silent
  have zero : (start.timer timer).toNat = 0 := by
    rcases build_eq_ok_iff.mp built with ⟨_, rfl⟩
    cases timer <;> rfl
  apply UInt8.toNat_inj.mp
  rw [timer_afterActs_of_silent silent, zero, Nat.zero_sub]
  rfl

set_option maxRecDepth 8000 in
theorem timers_count_ticks_of_set_in_frame :
    ∃ start : Machine, build .standard .zeroKeyed = .ok start ∧
      let program := [0x60, 0x02, 0xF0, 0x15, 0xF0, 0x18, 0x00, 0xEE]
      let requests : List Request := [.load program 0x200, .frame 2, .tick, .frame 1, .frame 1]
      let last := start.afterAll requests
      (∃ since, Latest Timer.delay.SetBy (start.moments (start.actsAll requests)) 2 since ∧
        since.countP Moment.ticks = 3 ∧ (last.timer .delay).toNat = 2 - 3) ∧
      (∃ since, Latest Timer.sound.SetBy (start.moments (start.actsAll requests)) 2 since ∧
        since.countP Moment.ticks = 1 ∧ (last.timer .sound).toNat = 2 - 1) ∧
      last.soundActive = true := by
  let start := initial .standard (Memory.blank.write 0x050 Font.bytes) .zeroKeyed
  have built : build .standard .zeroKeyed = .ok start := build_standard _
  refine ⟨start, built, ?_⟩
  intro program requests last
  let set := start.afterActs [.load program 0x200, .cycle]
  let setAgain := set.afterActs [.cycle, .tick, .tick]
  have seen :
      start.actsAll requests =
          [.load program 0x200, .cycle, .cycle, .tick, .tick, .cycle, .tick, .cycle] ∧
        (set.succeeds? = some (.setDelayTimer 0) ∧ 2 = set.v 0) ∧
        (∀ moment ∈ set.cycle.machine.moments [.tick, .tick, .cycle, .tick, .cycle],
          moment.act = .cycle → ∀ x, moment.before.succeeds? ≠ some (.setDelayTimer x)) ∧
        (setAgain.succeeds? = some (.setSoundTimer 0) ∧ 2 = setAgain.v 0) ∧
        ∀ moment ∈ setAgain.cycle.machine.moments [.tick, .cycle],
          moment.act = .cycle → ∀ x, moment.before.succeeds? ≠ some (.setSoundTimer x) := by
    decide +kernel
  rcases seen with ⟨made, delaySet, delayKept, soundSet, soundKept⟩
  have delayLatest : Latest Timer.delay.SetBy (start.moments (start.actsAll requests)) 2
      (set.cycle.machine.moments [.tick, .tick, .cycle, .tick, .cycle]) := by
    rw [made]
    exact ⟨start.moments [.load program 0x200, .cycle], _, rfl, ⟨rfl, 0, delaySet⟩,
      silent_setBy delayKept⟩
  have soundLatest : Latest Timer.sound.SetBy (start.moments (start.actsAll requests)) 2
      (setAgain.cycle.machine.moments [.tick, .cycle]) := by
    rw [made]
    exact ⟨start.moments [.load program 0x200, .cycle, .cycle, .tick, .tick], _, rfl,
      ⟨rfl, 0, soundSet⟩, silent_setBy soundKept⟩
  rcases timers_count_ticks built with ⟨counts, beeps, _⟩
  have delay := (counts requests .delay).1 _ _ delayLatest
  have sound := (counts requests .sound).1 _ _ soundLatest
  refine ⟨⟨_, delayLatest, rfl, delay⟩, ⟨_, soundLatest, rfl, sound⟩, ?_⟩
  rw [beeps last, sound]
  decide

end Machine

end Chip8
