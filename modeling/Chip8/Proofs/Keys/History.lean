import Chip8.Proofs.Flow.Skips
import Chip8.Proofs.Keys.Waiting
import Chip8.Proofs.Runs.Latest

/-!
# The keypad shows what the host did to it

Programs look at keys but cannot move them: a key is pressed exactly while the last thing that the host
did to it was to press it. `Tells` says what a request does to a key. Whatever comes in between, inside
frames too, all instructions that look at keys find those that the host left.

`isPressed_perform_of_tells` and `isPressed_perform_of_untold` say what one request makes of a key, and
`keypad_moments` that a run without an event of the keys keeps the keypad at each of its steps.
-/

namespace Chip8

namespace Request

/-- What a request does to a key: the host presses it, lets go of it, or lets go of all keys. -/
inductive Tells (key : Key) : Request → Bool → Prop where
  | set {number : UInt8} {pressed : Bool} (named : number.toNat = key.val) :
      Tells key (.setKey number pressed) pressed
  | release : Tells key .releaseKeys false

def isKeyEvent : Request → Bool
  | .setKey .. | .releaseKeys => true
  | _ => false

end Request

namespace Machine

/-- A machine with these keys on its keypad, whose next cycle finds them so if it looks at keys: it
waits on `Fx0A` if none is pressed and puts the lowest of them into the register otherwise, and it
skips on `Ex9E` if the key is pressed and on `ExA1` if it is not. -/
structure Sees (machine : Machine) (keypad : Keypad) : Prop where
  keypad_eq : machine.keypad = keypad
  waits : ∀ x, machine.memory.WordAt machine.pc.toNat (.awaitKey x) → keypad.lowest? = none →
    machine.cycle.result = .ok (.waitingForKey x)
  takes : ∀ x key, machine.memory.WordAt machine.pc.toNat (.awaitKey x) →
    keypad.lowest? = some key →
      machine.cycle.result = .ok .executed ∧ (machine.cycle.machine.v x).toNat = key.val
  skips : ∀ x wanted (key : Key), (machine.v x).toNat = key.val →
    machine.memory.WordAt machine.pc.toNat ((Condition.key x).word wanted) →
      machine.cycle.result = .ok .executed ∧
        machine.cycle.machine.pc.toNat =
          machine.pc.toNat + if keypad.isPressed key = wanted then 4 else 2

variable {machine : Machine} {request : Request} {act : Act} {acts : List Act} {key : Key}
variable {value : Bool} {fault : Fault}

/-! ## What a cycle finds -/

theorem takes_lowest {x : Register} (there : machine.memory.WordAt machine.pc.toNat (.awaitKey x))
    (lowest : machine.keypad.lowest? = some key) :
    machine.cycle.result = .ok .executed ∧ (machine.cycle.machine.v x).toNat = key.val := by
  have pressed := (Keypad.lowest?_eq_some_iff.mp lowest).1
  rcases resumes_of_pressed there ⟨key, pressed⟩ with ⟨found, resumes⟩
  have same := Keypad.lowest?_eq_some_iff.mpr ⟨resumes.pressed, resumes.lowest⟩
  cases lowest.symm.trans same
  exact ⟨resumes.executed, resumes.value_eq⟩

theorem sees (machine : Machine) : machine.Sees machine.keypad where
  keypad_eq := rfl
  waits x there none := (cycle_of_released there (Keypad.lowest?_eq_none_iff.mp none)).1
  takes x key there lowest := takes_lowest there lowest
  skips x wanted key named there := by
    have looked : (Condition.key x).look machine = .ok (machine.keypad.isPressed key) :=
      keyIn_eq_ok_iff.mpr ⟨key, named, rfl⟩
    rcases cycle_of_looked there looked with ⟨executed, machine_eq⟩
    refine ⟨executed, ?_⟩
    rw [machine_eq, toNat_pc_skipIf (Memory.opcodeAt_eq_ok_iff_wordAt.mpr there)]
    simp only [beq_iff_eq]

/-! ## What leaves the keys alone -/

/-- No instruction moves a key. -/
theorem keypad_cycle (machine : Machine) : machine.cycle.machine.keypad = machine.keypad := by
  have step := machine.stepped
  generalize machine.succeeds? = instruction, machine.cycle.machine = after at step ⊢
  cases step with
  | unfetched | failed => rfl
  | carried carried => cases carried <;> rfl

/-- Only an event of the keys moves a key. -/
theorem keypad_act (still : act.request.isKeyEvent = false) :
    (machine.act act).keypad = machine.keypad := by
  by_cases cycles : act = .cycle
  · subst cycles
    exact machine.keypad_cycle
  · have way := machine.hosted cycles
    rw [Machine.act]
    generalize machine.perform act.request = reply at way ⊢
    cases way with
    | setKey | refusedKey | releaseKeys => cases still
    | _ => rfl

/-- Acts without an event of the keys leave the keypad as it is, at each of their steps. -/
theorem keypad_moments (still : ∀ act ∈ acts, act.request.isKeyEvent = false) :
    (∀ moment ∈ machine.moments acts, moment.before.keypad = machine.keypad) ∧
      (machine.afterActs acts).keypad = machine.keypad := by
  induction acts generalizing machine with
  | nil => exact ⟨List.forall_mem_nil _, rfl⟩
  | cons act rest ih =>
      rcases List.forall_mem_cons.mp still with ⟨first, later⟩
      have same : (machine.act act).keypad = machine.keypad := keypad_act first
      rw [moments, List.forall_mem_cons, afterActs_cons, ← same]
      rcases ih later with ⟨before, after⟩
      exact ⟨⟨rfl, before⟩, after⟩

theorem still_actsAll {requests : List Request}
    (still : ∀ request ∈ requests, request.isKeyEvent = false) :
    ∀ act ∈ machine.actsAll requests, act.request.isKeyEvent = false := by
  intro act member
  rcases mem_actsAll member with asked | rfl | rfl
  · exact still _ asked
  · rfl
  · rfl

theorem keypad_perform (still : request.isKeyEvent = false) :
    (machine.perform request).machine.keypad = machine.keypad := by
  have kept : (machine.afterAll [request]).keypad = machine.keypad := by
    rw [← afterActs_actsAll]
    exact (keypad_moments (still_actsAll (List.forall_mem_singleton.mpr still))).2
  exact kept

theorem keypad_perform_of_refused (refused : (machine.perform request).result = .error fault) :
    (machine.perform request).machine.keypad = machine.keypad := by
  cases request with
  | setKey number pressed =>
      have way := @hosted machine (.setKey number pressed) (by simp)
      simp only [Act.request] at way
      generalize machine.perform (.setKey number pressed) = reply at way refused ⊢
      cases way with
      | setKey => cases refused
      | refusedKey => rfl
  | releaseKeys => cases refused
  | _ => exact keypad_perform rfl

/-! ## What a request makes of a key -/

theorem isPressed_perform_of_tells (tells : request.Tells key value) :
    (machine.perform request).machine.keypad.isPressed key = value := by
  cases tells with
  | set named =>
      rw [perform, setKey_of_named named, Reply.machine_map, Reply.done, Keypad.isPressed_set,
        if_pos rfl]
  | release => exact Keypad.isPressed_released key

theorem isPressed_perform_of_untold (untold : ∀ value, ¬ request.Tells key value) :
    (machine.perform request).machine.keypad.isPressed key = machine.keypad.isPressed key := by
  cases request with
  | setKey number pressed =>
      by_cases inside : number.toNat < 16
      · have named : number.toNat = (⟨number.toNat, inside⟩ : Key).val := rfl
        rw [perform, setKey_of_named named, Reply.machine_map, Reply.done, Keypad.isPressed_set]
        apply if_neg
        rintro rfl
        exact untold pressed (.set rfl)
      · rw [perform, setKey_of_unnamed (Nat.le_of_not_lt inside)]
        rfl
  | releaseKeys => exact absurd .release (untold false)
  | _ => rw [keypad_perform rfl]

/-- After requests to a machine with no key pressed, a key is pressed exactly if the latest of them that
is about it pressed it. -/
theorem isPressed_afterAll_iff (released : machine.keypad.isPressed key = false)
    (requests : List Request) :
    (machine.afterAll requests).keypad.isPressed key = true ↔
      ∃ since, Latest (Request.Tells key) requests true since := by
  have shows : some ((machine.afterAll requests).keypad.isPressed key) = some true ↔ _ :=
    foldl_eq_some_iff (fun machine request => (perform machine request).machine)
      (fun machine => some (machine.keypad.isPressed key))
      (fun _ _ _ tells => congrArg some (isPressed_perform_of_tells tells))
      (fun _ _ untold => congrArg some (isPressed_perform_of_untold untold)) machine requests
  simpa only [released, Option.some.injEq, Bool.false_eq_true, and_false, or_false] using shows

/-- After any requests to a machine that was built, a key is pressed exactly if the latest of them that
presses it, lets go of it or lets go of all keys pressed it; the lowest pressed key is the least of
these, and there is none exactly if no key is pressed. A number above fifteen names no key: asking for
it and setting it are refused, with nothing changed. Only an event of the keys that is met changes any
key, so in a run without one all instructions that look at keys find the same, inside frames too. -/
theorem keys_follow_host {config : Config} {source : Random.Source} {start : Machine}
    (built : build config source = .ok start) :
    (∀ requests,
      let keypad := (start.afterAll requests).keypad
      (∀ key, keypad.isPressed key = true ↔
        ∃ since, Latest (Request.Tells key) requests true since) ∧
      (∀ key, keypad.lowest? = some key ↔
        keypad.isPressed key = true ∧ ∀ lower < key, keypad.isPressed lower = false) ∧
      (keypad.lowest? = none ↔ ∀ key, keypad.isPressed key = false)) ∧
    (∀ (machine : Machine) (number : UInt8),
      (∀ key : Key, number.toNat = key.val →
        machine.keypad.ask number = .ok (machine.keypad.isPressed key) ∧
          ∀ pressed, (machine.setKey number pressed).result = .ok ()) ∧
      (0xF < number.toNat →
        machine.keypad.ask number = .error (.invalidKey number) ∧
          ∀ pressed, machine.setKey number pressed = .refused machine (.invalidKey number))) ∧
    (∀ (machine : Machine) request,
      (machine.perform request).machine.keypad ≠ machine.keypad →
        request.isKeyEvent = true ∧ ∃ answer, (machine.perform request).result = .ok answer) ∧
    ∀ (machine : Machine) requests, (∀ request ∈ requests, request.isKeyEvent = false) →
      ∀ moment ∈ machine.moments (machine.actsAll requests), moment.before.Sees machine.keypad := by
  refine ⟨?_, ?_, ?_, ?_⟩
  · intro requests keypad
    refine ⟨?_, fun _ => Keypad.lowest?_eq_some_iff, Keypad.lowest?_eq_none_iff⟩
    intro key
    have released : start.keypad.isPressed key = false := by
      rcases build_eq_ok_iff.mp built with ⟨_, rfl⟩
      exact Keypad.isPressed_released key
    exact isPressed_afterAll_iff released requests
  · intro machine number
    constructor
    · intro key named
      refine ⟨machine.keypad.ask_of_named named, ?_⟩
      intro pressed
      rw [setKey_of_named named]
      rfl
    · intro above
      exact ⟨machine.keypad.ask_of_unnamed above, setKey_of_unnamed above⟩
  · intro machine request moved
    constructor
    · apply eq_true_of_ne_false
      intro still
      exact moved (keypad_perform still)
    · cases result : (machine.perform request).result with
      | error fault => exact absurd (keypad_perform_of_refused result) moved
      | ok answer => exact ⟨answer, rfl⟩
  · intro machine requests still moment member
    rw [← (keypad_moments (still_actsAll still)).1 moment member]
    exact moment.before.sees

set_option maxRecDepth 8000 in
theorem keys_follow_host_of_held_keys :
    ∃ start : Machine, build .standard .zeroKeyed = .ok start ∧
      let program := [0xF5, 0x0A, 0xE5, 0x9E]
      let requests : List Request := [.load program 0x200, .setKey 0x3 true, .setKey 0xC true,
        .releaseKeys, .setKey 0xE true, .setKey 0x7 true, .setKey 0x13 true, .setKey 0xF true,
        .setKey 0xF false, .tick]
      let machine := start.afterAll requests
      (∃ since, Latest (Request.Tells 0x7) requests true since) ∧
        (∃ since, Latest (Request.Tells 0xE) requests true since) ∧
        (¬ ∃ since, Latest (Request.Tells 0xC) requests true since) ∧
        (¬ ∃ since, Latest (Request.Tells 0xF) requests true since) ∧
        machine.keypad.lowest? = some 0x7 ∧
        machine.keypad.ask 0x13 = .error (.invalidKey 0x13) ∧
        let last := machine.afterActs [.cycle, .tick, .load [0xFF] 0x300]
        last.Sees machine.keypad ∧ last.v 5 = 0x7 ∧ last.cycle.machine.pc.toNat = 0x206 := by
  have built := build_standard .zeroKeyed
  refine ⟨_, built, ?_⟩
  intro program requests machine
  have seen : machine.keypad.isPressed 0x7 = true ∧ machine.keypad.isPressed 0xE = true ∧
      machine.keypad.isPressed 0xC = false ∧ machine.keypad.isPressed 0xF = false ∧
      ∀ lower < 0x7, machine.keypad.isPressed lower = false := by
    decide +kernel
  rcases seen with ⟨seven, fourteen, twelve, fifteen, least⟩
  rcases keys_follow_host built with ⟨shows, numbers, _, looks⟩
  rcases shows requests with ⟨pressed, lowest, _⟩
  refine ⟨(pressed _).mp seven, (pressed _).mp fourteen, ?_, ?_, (lowest _).mpr ⟨seven, least⟩,
    ((numbers machine 0x13).2 (by decide)).1, ?_⟩
  · rw [← pressed]
    exact ne_true_of_eq_false twelve
  · rw [← pressed]
    exact ne_true_of_eq_false fifteen
  · intro last
    have made : machine.actsAll [.frame 1, .load [0xFF] 0x300, .cycle] =
        [.cycle, .tick, .load [0xFF] 0x300, .cycle] := by
      decide +kernel
    have found : last.v 5 = 0x7 ∧ last.pc.toNat = 0x202 ∧
        last.memory.byte? last.pc.toNat = some 0xE5 ∧
        last.memory.byte? (last.pc.toNat + 1) = some 0x9E := by
      decide +kernel
    rcases found with ⟨taken, place, high, low⟩
    have finds : last.Sees machine.keypad := by
      refine looks machine [.frame 1, .load [0xFF] 0x300, .cycle] (by decide) ⟨last, .cycle⟩ ?_
      rw [made]
      exact .tail _ (.tail _ (.tail _ (.head _)))
    have skips := (finds.skips 5 true 0x7 (by rw [taken]; rfl) ⟨0xE5, 0x9E, high, low, rfl⟩).2
    rw [place, if_pos seven] at skips
    exact ⟨finds, taken, skips⟩

end Machine

end Chip8
