import Chip8.Proofs.Machine.Cycles
import Chip8.Proofs.Runs.Acts
import Chip8.Proofs.Screen.Draws

/-!
# The redraw flag loses no change of the screen

The instructions that clear the screen and draw sprites are the only ones that touch it. Each of them
that is carried out is a stroke, and the screen is what the strokes of a run make of a blank one. When
a host asks whether to redraw, the answer is whether there was a stroke since it last asked, so the
screen is as it was then if the answer is no.
-/

namespace Chip8

/-- A change of the screen. -/
inductive Stroke where
  | clear
  | sprite (placement : Placement)
  deriving DecidableEq, Repr

/-- The screen after a stroke. -/
def Screen.stroke (screen : Screen) : Stroke → Screen
  | .clear => .blank
  | .sprite placement => (screen.place placement).screen

/-- The stroke of an instruction that is carried out: `00E0` clears the screen, and `Dxyn` draws the
`n` bytes at the index register at the coordinates `Vx` and `Vy`. -/
def Machine.stroke? (machine : Machine) : Instruction → Option Stroke
  | .clearScreen => some .clear
  | .draw x y n =>
      some (.sprite ⟨machine.v x, machine.v y,
        machine.memory.read machine.registers.index.toNat n.val⟩)
  | _ => none

/-- The stroke of an act: none, unless it is a cycle that carries out an instruction that has one. -/
def Moment.stroke? (moment : Moment) : Option Stroke :=
  match moment.act with
  | .cycle => moment.before.succeeds?.bind moment.before.stroke?
  | _ => none

namespace Machine

def strokes (machine : Machine) (acts : List Act) : List Stroke :=
  (machine.moments acts).filterMap Moment.stroke?

/-- What a stroke, or none, makes of a screen and a redraw flag, given the machine after it. -/
inductive Painted (screen : Screen) (redraw : Bool) (after : Machine) : Option Stroke → Prop where
  | kept (screen_eq : after.screen = screen) (redraw_eq : after.redraw = redraw) :
      Painted screen redraw after none
  | drawn {stroke : Stroke} (screen_eq : after.screen = screen.stroke stroke)
      (redraw_eq : after.redraw = true) : Painted screen redraw after (some stroke)

variable {machine after : Machine} {instruction : Instruction} {progress : Progress}

/-! ## The stroke of an act -/

/-- An instruction that is carried out does to the screen what its stroke says. -/
theorem painted_of_carried (carried : Carried machine instruction progress after) :
    Painted machine.screen machine.redraw after (machine.stroke? instruction) := by
  cases carried with
  | clear => exact .drawn rfl rfl
  | draw inside shown =>
      subst shown
      exact .drawn rfl rfl
  | back | call | wait | random => exact .kept rfl rfl
  | flow about | transfer about | store about =>
      have quiet : machine.stroke? instruction = none := by
        cases instruction <;> first | rfl | cases about
      rw [quiet]
      exact .kept rfl rfl

theorem stroke?_fetched (machine : Machine) (opcode : Opcode) (instruction : Instruction) :
    (machine.fetched opcode).stroke? instruction = machine.stroke? instruction := by
  cases instruction <;> rfl

theorem painted_cycle (machine : Machine) :
    Painted machine.screen machine.redraw machine.cycle.machine
      (Moment.stroke? ⟨machine, .cycle⟩) := by
  have step := machine.stepped
  simp only [Moment.stroke?]
  generalize machine.succeeds? = found, machine.cycle.machine = after at step ⊢
  cases step with
  | unfetched | failed => exact .kept rfl rfl
  | carried carried =>
      have painted := painted_of_carried carried
      rw [stroke?_fetched] at painted
      exact painted

/-- Every act but the question whether to redraw does what its stroke says. -/
theorem painted_act (machine : Machine) {act : Act} (unasked : act ≠ .takeRedraw) :
    Painted machine.screen machine.redraw (machine.act act) (Moment.stroke? ⟨machine, act⟩) := by
  by_cases cycles : act = .cycle
  · subst cycles
    exact machine.painted_cycle
  · have way := machine.hosted cycles
    rw [Machine.act]
    generalize machine.perform act.request = reply at way ⊢
    cases way with
    | takeRedraw => exact absurd rfl unasked
    | _ => exact .kept rfl rfl

/-! ## The strokes of a run -/

/-- The screen after acts is what their strokes make of the screen before. -/
theorem screen_afterActs (machine : Machine) (acts : List Act) :
    (machine.afterActs acts).screen = (machine.strokes acts).foldl Screen.stroke machine.screen := by
  induction acts generalizing machine with
  | nil => rfl
  | cons act rest ih =>
      have later := ih (machine.act act)
      simp only [strokes, moments, List.filterMap_cons, afterActs_cons] at later ⊢
      by_cases asks : act = .takeRedraw
      · subst asks
        exact later
      · have painted := machine.painted_act asks
        generalize Moment.stroke? ⟨machine, act⟩ = stroke at painted ⊢
        cases painted with
        | kept screen_eq =>
            rw [screen_eq] at later
            exact later
        | drawn screen_eq =>
            rw [screen_eq] at later
            exact later

/-- As long as nobody asks, the redraw flag is up from the first stroke on. -/
theorem redraw_afterActs (machine : Machine) {acts : List Act} (unasked : .takeRedraw ∉ acts) :
    (machine.afterActs acts).redraw = true ↔
      machine.redraw = true ∨ ∃ moment ∈ machine.moments acts, moment.stroke?.isSome := by
  induction acts generalizing machine with
  | nil => simp [moments]
  | cons act rest ih =>
      rcases List.ne_and_not_mem_of_not_mem_cons unasked with ⟨other, unasked⟩
      have painted := machine.painted_act (Ne.symm other)
      rw [afterActs_cons, ih _ unasked, moments, List.exists_mem_cons_iff]
      generalize Moment.stroke? ⟨machine, act⟩ = stroke at painted ⊢
      cases painted with
      | kept screen_eq redraw_eq => simp [redraw_eq]
      | drawn screen_eq redraw_eq => simp [redraw_eq]

/-- Without a stroke the screen stays as it is. -/
theorem screen_eq_of_no_stroke (machine : Machine) {acts : List Act}
    (quiet : ¬ ∃ moment ∈ machine.moments acts, moment.stroke?.isSome) :
    (machine.afterActs acts).screen = machine.screen := by
  have none : machine.strokes acts = [] := by
    apply List.filterMap_eq_nil_iff.mpr
    intro moment member
    apply Option.not_isSome_iff_eq_none.mp
    intro some
    exact quiet ⟨moment, member, some⟩
  rw [screen_afterActs, none, List.foldl_nil]

/-! ## Asking whether to redraw -/

theorem takeRedraw_not_mem_actsAll (machine : Machine) {requests : List Request}
    (unasked : .takeRedraw ∉ requests) : .takeRedraw ∉ machine.actsAll requests := by
  intro member
  rcases mem_actsAll member with asked | cycles | ticks
  · exact unasked asked
  · cases cycles
  · cases ticks

/-- Right after building, and right after a host has asked, there is nothing to redraw. -/
theorem redraw_of_fresh {config : Config} {source : Random.Source} {start : Machine}
    (built : build config source = .ok start) {requests : List Request}
    (fresh : requests = [] ∨ ∃ earlier, requests = earlier ++ [.takeRedraw]) :
    (start.afterAll requests).redraw = false := by
  rcases fresh with rfl | ⟨earlier, rfl⟩
  · rcases build_eq_ok_iff.mp built with ⟨_, rfl⟩
    rfl
  · rw [afterAll_append]
    rfl

/-- A host that asks whether to redraw is told whether an instruction that clears the screen or draws
a sprite was carried out since it last asked, or since building if it never did. If it is told that
there was none, every pixel is as it was then. At every point of a run the screen shows the strokes
of the run, in order, on a blank screen. -/
theorem redraw_reports_strokes {config : Config} {source : Random.Source} {start : Machine}
    (built : build config source = .ok start) :
    (∀ earlier between : List Request,
      (earlier = [] ∨ ∃ first, earlier = first ++ [.takeRedraw]) → .takeRedraw ∉ between →
      let before := start.afterAll earlier
      let now := before.afterAll between
      ∃ wanted, (now.perform .takeRedraw).result = .ok (.redraw wanted) ∧
        (wanted = true ↔
          ∃ moment ∈ before.moments (before.actsAll between), moment.stroke?.isSome) ∧
        (wanted = false → ∀ point, now.screen.lit point = before.screen.lit point)) ∧
    start.screen = .blank ∧
    ∀ requests acts, acts <+: start.actsAll requests →
      (start.afterActs acts).screen = (start.strokes acts).foldl Screen.stroke .blank := by
  have blank : start.screen = .blank := by
    rcases build_eq_ok_iff.mp built with ⟨_, rfl⟩
    rfl
  refine ⟨?_, blank, ?_⟩
  · intro earlier between fresh unasked before now
    have lowered : before.redraw = false := redraw_of_fresh built fresh
    have raised := before.redraw_afterActs (before.takeRedraw_not_mem_actsAll unasked)
    rw [afterActs_actsAll, lowered] at raised
    simp only [Bool.false_eq_true, false_or] at raised
    refine ⟨now.redraw, rfl, raised, ?_⟩
    intro unwanted point
    have quiet : ¬ ∃ moment ∈ before.moments (before.actsAll between), moment.stroke?.isSome := by
      intro some
      exact absurd (raised.mpr some) (by rw [unwanted]; decide)
    have same := before.screen_eq_of_no_stroke quiet
    rw [afterActs_actsAll] at same
    rw [same]
  · intro requests acts point
    rw [screen_afterActs, blank]

set_option maxRecDepth 8000 in
theorem redraw_reports_strokes_of_aborted_frame :
    ∃ start : Machine, build .standard .zeroKeyed = .ok start ∧
      let before := start.afterAll [.load [0xA0, 0x50, 0xD0, 0x05, 0x00, 0xEE] 0x200, .takeRedraw]
      let now := before.afterAll [.frame 3, .tick]
      let later := (now.afterAll [.takeRedraw]).afterAll [.frame 2]
      (before.perform (.frame 3)).result = .error .stackUnderflow ∧
        (now.perform .takeRedraw).result = .ok (.redraw true) ∧
        before.screen.lit ⟨0, 3⟩ = false ∧ now.screen.lit ⟨0, 3⟩ = true ∧
        (later.perform .takeRedraw).result = .ok (.redraw false) ∧
        ∀ point, later.screen.lit point = now.screen.lit point := by
  have built := build_standard .zeroKeyed
  refine ⟨_, built, ?_⟩
  intro before now later
  let setting : List Request := [.load [0xA0, 0x50, 0xD0, 0x05, 0x00, 0xEE] 0x200, .takeRedraw]
  have seen : (before.perform (.frame 3)).result = .error .stackUnderflow ∧
      ((before.moments (before.actsAll [.frame 3, .tick])).any fun moment =>
        moment.stroke?.isSome) = true ∧
      before.screen.lit ⟨0, 3⟩ = false ∧ now.screen.lit ⟨0, 3⟩ = true ∧
      (later.perform .takeRedraw).result = .ok (.redraw false) := by
    decide +kernel
  rcases seen with ⟨aborted, drawn, dark, lit, quiet⟩
  rcases redraw_reports_strokes built with ⟨asked, _⟩
  rcases asked setting [.frame 3, .tick] (.inr ⟨[_], rfl⟩) (by decide) with
    ⟨wanted, told, raised, _⟩
  have up : wanted = true := raised.mpr (List.any_eq_true.mp drawn)
  rw [up] at told
  have again := asked (setting ++ [.frame 3, .tick] ++ [.takeRedraw]) [.frame 2] (.inr ⟨_, rfl⟩)
    (by decide)
  have kept (machine : Machine) : (machine.afterAll [.takeRedraw]).screen = machine.screen := rfl
  simp only [afterAll_append, kept] at again
  rcases again with ⟨unwanted, answered, _, same⟩
  cases answered.symm.trans quiet
  exact ⟨aborted, told, dark, lit, quiet, same rfl⟩

end Machine

end Chip8
