import Chip8.Machine.Session

/-!
# Routines

A routine works on a machine one statement after the other. It may trap, which is how a sum that does
not fit its word, a difference below zero or a register without a place would end. Otherwise it comes
to a reply. When a statement comes to a fault the rest is left out, but nothing is taken back: what
was written before the fault stays written.

Routines are the strict reading of what a machine does. The machine itself computes with words that
wrap around and has no result for an instruction that is refused; that both come to the same is a
theorem about routines.
-/

namespace Chip8

open Machine

/-- Statements that work on a machine: a trap, or a reply. -/
def Routine (α : Type) := Machine → Option (Reply α)

namespace Routine

variable {α β : Type}

/-- Go on with the value of a routine, if it comes to one. -/
def andThen (first : Routine α) (next : α → Routine β) : Routine β := fun machine =>
  match first machine with
  | none => none
  | some ⟨.error fault, after, log⟩ => some ⟨.error fault, after, log⟩
  | some ⟨.ok value, after, log⟩ =>
      (next value after).map fun reply => ⟨reply.result, reply.machine, log ++ reply.log⟩

instance : Monad Routine where
  pure value := fun machine => some (.done machine value)
  bind := andThen

def inspect : Routine Machine := fun machine => some (.done machine machine)

def write (change : Machine → Machine) : Routine Unit := fun machine =>
  some (.done (change machine) ())

def report (event : Event) : Routine Unit := fun machine => some ⟨.ok (), machine, [event]⟩

/-- Go on with a value, or end with a fault. -/
def check (outcome : Except Fault α) : Routine α := fun machine =>
  some ⟨outcome, machine, []⟩

/-- Go on with a value, or trap. -/
def demand (value : Option α) : Routine α := fun machine => value.map (.done machine)

/-- If a routine ends with a fault, let a handler see it before it is passed on. -/
def onFault (routine : Routine α) (handler : Fault → Routine Unit) : Routine α := fun machine =>
  match routine machine with
  | some ⟨.error fault, after, log⟩ =>
      (handler fault after).map fun reply => ⟨.error fault, reply.machine, log ++ reply.log⟩
  | other => other

/-! ## Numbers that trap -/

/-- The sum of two words; a trap if it needs more than sixteen bits. -/
def plus (left right : UInt16) : Routine UInt16 :=
  demand (if left.toNat + right.toNat < UInt16.size then some (left + right) else none)

/-- The difference of two words; a trap if it is negative. -/
def minus (left right : UInt16) : Routine UInt16 :=
  demand (if right.toNat ≤ left.toNat then some (left - right) else none)

/-- The product of two words; a trap if it needs more than sixteen bits. -/
def times (left right : UInt16) : Routine UInt16 :=
  demand (if left.toNat * right.toNat < UInt16.size then some (left * right) else none)

/-- What is left of a size behind an address; a trap if the address lies past it. -/
def beyond (size : Nat) (address : UInt16) : Routine Nat :=
  demand (if address.toNat ≤ size then some (size - address.toNat) else none)

/-- The first `count` registers; a trap if there are not as many. -/
def leading (registers : Registers) (count : Nat) : Routine (List UInt8) :=
  demand (if count ≤ 16 then some (registers.general.toList.take count) else none)

/-! ## Evaluation -/

section Evaluation

variable {first : Routine α} {next : α → Routine β} {machine after : Machine} {value : α}

/-- Behind a part that comes to a value, a routine is what follows on the machine left by it. -/
theorem bind_of_ok {log : List Event} (met : first machine = some ⟨.ok value, after, log⟩) :
    (first >>= next) machine =
      (next value after).map fun reply => ⟨reply.result, reply.machine, log ++ reply.log⟩ := by
  simp only [bind, andThen, met]

theorem bind_of_done (met : first machine = some (.done after value)) :
    (first >>= next) machine = next value after := by
  rw [bind_of_ok met]
  cases next value after with
  | none => rfl
  | some reply => rfl

theorem bind_of_error {fault : Fault} {log : List Event}
    (failed : first machine = some ⟨.error fault, after, log⟩) :
    (first >>= next) machine = some ⟨.error fault, after, log⟩ := by
  simp only [bind, andThen, failed]

theorem onFault_of_ok {handler : Fault → Routine Unit} {log : List Event}
    (met : first machine = some ⟨.ok value, after, log⟩) :
    onFault first handler machine = some ⟨.ok value, after, log⟩ := by
  simp only [onFault, met]

theorem onFault_of_error {handler : Fault → Routine Unit} {fault : Fault} {log : List Event}
    (failed : first machine = some ⟨.error fault, after, log⟩) :
    onFault first handler machine =
      (handler fault after).map fun reply => ⟨.error fault, reply.machine, log ++ reply.log⟩ := by
  simp only [onFault, failed]

@[simp] theorem pure_apply : (pure value : Routine α) machine = some (.done machine value) := rfl

theorem bind_pure_of_some {reply : Reply α} {f : α → β} (met : first machine = some reply) :
    (first >>= fun value => pure (f value)) machine = some (reply.map f) := by
  rcases reply with ⟨result, after, log⟩
  cases result with
  | error fault => exact bind_of_error met
  | ok value =>
      rw [bind_of_ok met]
      simp only [pure_apply, Option.map_some, Reply.done, List.append_nil]
      rfl

@[simp] theorem inspect_bind {next : Machine → Routine β} :
    (inspect >>= next) machine = next machine machine := bind_of_done rfl

@[simp] theorem write_bind {change : Machine → Machine} {next : Unit → Routine β} :
    (write change >>= next) machine = next () (change machine) := bind_of_done rfl

@[simp] theorem report_bind {event : Event} {next : Unit → Routine β} :
    (report event >>= next) machine =
      (next () machine).map fun reply => ⟨reply.result, reply.machine, event :: reply.log⟩ := by
  have reported : report event machine = some ⟨.ok (), machine, [event]⟩ := rfl
  exact bind_of_ok reported

@[simp] theorem check_ok_bind : (check (.ok value) >>= next) machine = next value machine :=
  bind_of_done rfl

@[simp] theorem check_error_bind {fault : Fault} :
    (check (.error fault) >>= next) machine = some (.refused machine fault) := bind_of_error rfl

@[simp] theorem demand_some_bind : (demand (some value) >>= next) machine = next value machine :=
  bind_of_done rfl

end Evaluation

theorem plus_apply (left right : UInt16) (fits : left.toNat + right.toNat < UInt16.size)
    (machine : Machine) : plus left right machine = some (.done machine (left + right)) := by
  simp only [plus, demand, fits, if_true, Option.map_some]

theorem minus_apply (left right : UInt16) (enough : right.toNat ≤ left.toNat)
    (machine : Machine) : minus left right machine = some (.done machine (left - right)) := by
  simp only [minus, demand, enough, if_true, Option.map_some]

theorem times_apply (left right : UInt16) (fits : left.toNat * right.toNat < UInt16.size)
    (machine : Machine) : times left right machine = some (.done machine (left * right)) := by
  simp only [times, demand, fits, if_true, Option.map_some]

theorem beyond_apply {size : Nat} {address : UInt16} (inside : address.toNat ≤ size)
    (machine : Machine) :
    beyond size address machine = some (.done machine (size - address.toNat)) := by
  simp only [beyond, demand, inside, if_true, Option.map_some]

theorem leading_apply (registers : Registers) {count : Nat} (enough : count ≤ 16)
    (machine : Machine) :
    leading registers count machine =
      some (.done machine (registers.general.toList.take count)) := by
  simp only [leading, demand, enough, if_true, Option.map_some]

end Routine

end Chip8
