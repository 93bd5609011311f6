import Chip8.Event
import Chip8.Rom

/-!
# Outcomes

What a request comes to: a value or a fault, and the events on the way. Events that were reported
before a fault stay reported.
-/

namespace Chip8

/-- A value or a fault, with the events that led to it. -/
structure Outcome (α : Type) where
  result : Except Fault α
  log : List Event

namespace Outcome

variable {α β : Type}

def refused (fault : Fault) : Outcome α := ⟨.error fault, []⟩

def reported (value : α) (event : Event) : Outcome α := ⟨.ok value, [event]⟩

/-- Go on with the value, if there is one, and put the events one after the other. -/
def andThen (outcome : Outcome α) (next : α → Outcome β) : Outcome β :=
  match outcome.result with
  | .ok value =>
      let rest := next value
      ⟨rest.result, outcome.log ++ rest.log⟩
  | .error fault => ⟨.error fault, outcome.log⟩

end Outcome

/-- Read a rom under a name, where `contents` is what the host finds there, and `reason` what it says
if it finds nothing that it can read. -/
def Rom.read (name : String) (contents : Option (List UInt8))
    (reason : String := "No such file or directory (os error 2)") : Outcome Rom :=
  match contents with
  | some bytes => .reported ⟨bytes⟩ (.romRead name bytes.length)
  | none => .refused (.unreadable reason)

end Chip8
