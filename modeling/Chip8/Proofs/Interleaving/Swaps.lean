import Mathlib.Control.Monad.Basic
import Mathlib.Logic.Relation
import Chip8.Proofs.Interleaving.Parts

/-!
# The order of requests that do not meet

A host polls its keyboard, its clock and its display between cycles, at times that the program knows
nothing of. `Independent` lists the neighbours whose order does not matter: a request for one of the
parts that a host and a program share, next to a cycle whose word does not use that part or next to a
request for another part, keys next to other keys, and ticks. Whether a cycle is independent of a
request depends on the word that it is going to fetch, so on the machine.

Independent neighbours commute: each comes to the same in either order, and so does the machine behind
both. Sessions that lead to each other by such swaps cannot be told apart by what their requests come
to, nor by the machines that they leave.
-/

namespace Chip8

/-- Different keys do not get in each other's way, and a number that is no key presses none. -/
theorem Keypad.setNumber_comm (keypad : Keypad) {first second : UInt8} (different : first ≠ second)
    (down up : Bool) :
    (keypad.setNumber first down).setNumber second up =
      (keypad.setNumber second up).setNumber first down := by
  simp only [setNumber]
  cases left : Key.ofByte first with
  | error fault => rfl
  | ok key =>
      cases right : Key.ofByte second with
      | error fault => rfl
      | ok other =>
          have apart : key.val ≠ other.val := by
            intro same
            apply different
            apply UInt8.toNat_inj.mp
            rw [Key.ofByte_eq_ok_iff.mp left, Key.ofByte_eq_ok_iff.mp right, same]
          exact congrArg Keypad.mk (Vector.set_comm down up apart)

namespace Machine

/-- Neighbours in a session whose order does not matter, given the machine before both. -/
inductive Independent (machine : Machine) : Request → Request → Prop where
  /-- A request for a part, and a cycle whose word does not use the part, whether it goes well, waits
  or fails. -/
  | cycle {request : Request} {part : Part} (uses : request.part? = some part)
      (apart : ∀ word, machine.memory.WordAt machine.pc.toNat word → ¬ word.Uses part) :
      Independent machine request .cycle
  /-- Requests for different parts. -/
  | parts {first second : Request} {one other : Part} (first_uses : first.part? = some one)
      (second_uses : second.part? = some other) (different : one ≠ other) :
      Independent machine first second
  /-- Different keys. -/
  | keys {first second : UInt8} (different : first ≠ second) (down up : Bool) :
      Independent machine (.setKey first down) (.setKey second up)
  | ticks : Independent machine .tick .tick
  | symm {first second : Request} (swapped : Independent machine second first) :
      Independent machine first second

/-- Two requests come to the same in either order, each of them and the machine behind both. -/
structure Commutes (machine : Machine) (first second : Request) : Prop where
  first_eq : ((machine.perform second).machine.perform first).result =
    (machine.perform first).result
  second_eq : ((machine.perform first).machine.perform second).result =
    (machine.perform second).result
  machine_eq : ((machine.perform first).machine.perform second).machine =
    ((machine.perform second).machine.perform first).machine

variable {machine : Machine} {first second : Request}

theorem Commutes.symm (commutes : machine.Commutes first second) :
    machine.Commutes second first where
  first_eq := commutes.second_eq
  second_eq := commutes.first_eq
  machine_eq := commutes.machine_eq.symm

theorem commutes_cycle {part : Part} (uses : first.part? = some part)
    (apart : ∀ word, machine.memory.WordAt machine.pc.toNat word → ¬ word.Uses part) :
    machine.Commutes first .cycle := by
  rcases exists_change uses with ⟨change, rfl, changes⟩
  rcases cycle_changed change apart with ⟨same, after⟩
  refine ⟨?_, ?_, ?_⟩
  · apply result_perform uses
    intro flag
    rw [flag] at apart
    exact redraw_cycle apart
  · rw [changes]
    exact congrArg (Except.map Answer.progress) same
  · rw [changes, changes]
    exact after

theorem commutes_parts {one other : Part} (first_uses : first.part? = some one)
    (second_uses : second.part? = some other) (different : one ≠ other) :
    machine.Commutes first second := by
  rcases exists_change first_uses with ⟨left, rfl, lefts⟩
  rcases exists_change second_uses with ⟨right, rfl, rights⟩
  refine ⟨?_, ?_, ?_⟩
  · rw [rights]
    apply result_perform first_uses
    intro flag
    exact machine.redraw_changed fun same => different (flag.trans same.symm)
  · rw [lefts]
    apply result_perform second_uses
    intro flag
    exact machine.redraw_changed fun same => different (same.trans flag.symm)
  · rw [lefts, rights, lefts, rights]
    exact machine.changed_comm different

/-- Different keys commute, also where a number is no key. -/
theorem commutes_keys {first second : UInt8} (different : first ≠ second) (down up : Bool) :
    machine.Commutes (.setKey first down) (.setKey second up) := by
  refine ⟨?_, ?_, ?_⟩
  · exact result_perform rfl (fun flag => by cases flag)
  · exact result_perform rfl (fun flag => by cases flag)
  · simp only [machine_setKey, changed, Keypad.setNumber_comm _ different]

/-- Independent neighbours commute. -/
theorem Independent.commutes (independent : machine.Independent first second) :
    machine.Commutes first second := by
  induction independent with
  | cycle uses apart => exact commutes_cycle uses apart
  | parts first_uses second_uses different =>
      exact commutes_parts first_uses second_uses different
  | keys different down up => exact commutes_keys different down up
  | ticks => exact ⟨rfl, rfl, rfl⟩
  | symm _ ih => exact ih.symm

/-! ## Sessions -/

section Sessions

variable {ι : Type}

/-- Named requests, each with what it comes to. -/
def answers (machine : Machine) (requests : List (ι × Request)) :
    List ((ι × Request) × Except Fault Answer) :=
  requests.zip ((machine.performAll (requests.map Prod.snd)).map Reply.result)

def afterNamed (machine : Machine) (requests : List (ι × Request)) : Machine :=
  machine.afterAll (requests.map Prod.snd)

/-- Two sessions that differ in the order of two independent neighbours. -/
inductive Swapped (machine : Machine) : List (ι × Request) → List (ι × Request) → Prop where
  | swap (earlier later : List (ι × Request)) {first second : ι × Request}
      (independent : (machine.afterNamed earlier).Independent first.2 second.2) :
      Swapped machine (earlier ++ first :: second :: later) (earlier ++ second :: first :: later)

theorem answers_append (machine : Machine) (earlier later : List (ι × Request)) :
    machine.answers (earlier ++ later) =
      machine.answers earlier ++ (machine.afterNamed earlier).answers later := by
  induction earlier generalizing machine with
  | nil => rfl
  | cons request rest ih => exact congrArg _ (ih (machine.perform request.2).machine)

theorem answers_cons (machine : Machine) (request : ι × Request) (rest : List (ι × Request)) :
    machine.answers (request :: rest) =
      (request, (machine.perform request.2).result) ::
        (machine.perform request.2).machine.answers rest := rfl

theorem afterNamed_append (machine : Machine) (earlier later : List (ι × Request)) :
    machine.afterNamed (earlier ++ later) = (machine.afterNamed earlier).afterNamed later := by
  simp only [afterNamed, afterAll, List.map_append, List.foldl_append]

theorem afterNamed_cons (machine : Machine) (request : ι × Request) (rest : List (ι × Request)) :
    machine.afterNamed (request :: rest) =
      (machine.perform request.2).machine.afterNamed rest := rfl

variable {machine : Machine} {left right : List (ι × Request)}

/-- Neighbours that commute come to what the first of them would come to in their place, in either
order, and what is behind them does not notice. -/
theorem answers_of_commutes {first second : ι × Request}
    (commutes : machine.Commutes first.2 second.2) (later : List (ι × Request)) :
    machine.answers (first :: second :: later) =
      (first, (machine.perform first.2).result) :: (second, (machine.perform second.2).result) ::
        (machine.afterNamed [first, second]).answers later := by
  rw [answers_cons, answers_cons, commutes.second_eq]
  rfl

theorem afterNamed_of_commutes {first second : ι × Request}
    (commutes : machine.Commutes first.2 second.2) (later : List (ι × Request)) :
    machine.afterNamed (second :: first :: later) =
      machine.afterNamed (first :: second :: later) := by
  rw [afterNamed_cons, afterNamed_cons, ← commutes.machine_eq]
  rfl

/-- A swap of independent neighbours leaves every request its answer and leads to the same machine. -/
theorem Swapped.agree (swapped : machine.Swapped left right) :
    (machine.answers left).Perm (machine.answers right) ∧
      machine.afterNamed left = machine.afterNamed right := by
  cases swapped with
  | @swap earlier later first second independent =>
      have commutes := independent.commutes
      have same := afterNamed_of_commutes commutes
      refine ⟨?_, ?_⟩
      · rw [answers_append, answers_append, answers_of_commutes commutes,
          answers_of_commutes commutes.symm, same []]
        exact (List.Perm.swap _ _ _).append_left _
      · rw [afterNamed_append, afterNamed_append, same later]

/-- So do any number of swaps. -/
theorem agree_of_swaps (swaps : Relation.EqvGen machine.Swapped left right) :
    (machine.answers left).Perm (machine.answers right) ∧
      machine.afterNamed left = machine.afterNamed right := by
  induction swaps with
  | rel _ _ swapped => exact swapped.agree
  | refl _ => exact ⟨.refl _, rfl⟩
  | symm _ _ _ ih => exact ⟨ih.1.symm, ih.2.symm⟩
  | trans _ _ _ _ _ first second =>
      exact ⟨first.1.trans second.1, first.2.trans second.2⟩

end Sessions

/-- On every machine, in the middle of every session, two independent neighbours come in either order to
what they would come to alone, all other requests come to the same, and so does the machine at the end.
Hence sessions that lead to each other by such swaps give every request the same answer and leave the
same machine. -/
theorem independent_requests_commute {ι : Type} (machine : Machine) :
    (∀ (earlier later : List (ι × Request)) (first second : ι × Request),
      let middle := machine.afterNamed earlier
      middle.Independent first.2 second.2 →
        machine.answers (earlier ++ first :: second :: later) =
            machine.answers earlier ++ (first, (middle.perform first.2).result) ::
              (second, (middle.perform second.2).result) ::
                (middle.afterNamed [first, second]).answers later ∧
          machine.answers (earlier ++ second :: first :: later) =
            machine.answers earlier ++ (second, (middle.perform second.2).result) ::
              (first, (middle.perform first.2).result) ::
                (middle.afterNamed [first, second]).answers later ∧
          machine.afterNamed (earlier ++ second :: first :: later) =
            machine.afterNamed (earlier ++ first :: second :: later)) ∧
    ∀ left right : List (ι × Request), Relation.EqvGen machine.Swapped left right →
      (machine.answers left).Perm (machine.answers right) ∧
        machine.afterNamed left = machine.afterNamed right := by
  refine ⟨?_, fun left right => agree_of_swaps⟩
  intro earlier later first second middle independent
  have commutes : middle.Commutes first.2 second.2 := independent.commutes
  have same := afterNamed_of_commutes commutes
  refine ⟨?_, ?_, ?_⟩
  · rw [answers_append, answers_of_commutes commutes]
  · rw [answers_append, answers_of_commutes commutes.symm, same []]
  · rw [afterNamed_append, afterNamed_append, same later]

set_option maxRecDepth 8000 in
theorem independent_requests_commute_of_key_and_redraw :
    ∃ machine : Machine, build .standard .zeroKeyed = .ok machine ∧
      let start := (0, .load [0x61, 0x05, 0xF0, 0x07, 0xE1, 0x9E] 0x200)
      let polled := [start, (1, .setKey 5 true), (2, .cycle), (3, .tick), (4, .takeRedraw),
        (5, .cycle), (6, .cycle)]
      let delayed := [start, (2, .cycle), (1, .setKey 5 true), (3, .tick), (5, .cycle),
        (4, .takeRedraw), (6, .cycle)]
      Relation.EqvGen machine.Swapped polled delayed ∧
        (machine.answers polled).Perm (machine.answers delayed) ∧
        machine.afterNamed polled = machine.afterNamed delayed ∧
        (machine.afterNamed delayed).pc = 0x208 := by
  refine ⟨_, build_standard .zeroKeyed, ?_⟩
  intro start polled delayed
  let machine := initial .standard (Memory.blank.write 0x050 Font.bytes) .zeroKeyed
  let loaded := machine.afterNamed [start]
  let asked := [start, (2, .cycle), (1, .setKey 5 true), (3, .tick)]
  let ticked := machine.afterNamed asked
  have seen : loaded.memory.opcodeAt loaded.pc = .ok 0x6105 ∧
      ticked.memory.opcodeAt ticked.pc = .ok 0xF007 ∧
        (machine.afterNamed delayed).pc = 0x208 := by
    decide +kernel
  rcases seen with ⟨loads, reads, skipped⟩
  have loadsByte : Instruction.ofOpcode? 0x6105 = some (.loadByte 1 5) := by decide
  have readsTimer : Instruction.ofOpcode? 0xF007 = some (.loadDelayTimer 0) := by decide
  have keyFree : loaded.Independent (.setKey 5 true) .cycle :=
    .cycle rfl (apart_of_part? loads loadsByte (by decide))
  have flagFree : ticked.Independent .takeRedraw .cycle :=
    .cycle rfl (apart_of_part? reads readsTimer (by decide))
  have swaps : Relation.EqvGen machine.Swapped polled delayed :=
    .trans _ (asked ++ [(4, .takeRedraw), (5, .cycle), (6, .cycle)]) _
      (.rel _ _ (.swap [start] _ keyFree)) (.rel _ _ (.swap asked _ flagFree))
  rcases (independent_requests_commute machine).2 polled delayed swaps with ⟨answers, same⟩
  exact ⟨swaps, answers, same, skipped⟩

end Machine

end Chip8
