/-!
# Calls and returns

A turn is a call, which says where to go on later, or a return. In a row of turns a return matches
the last call that is not matched yet. `OpenCalls` says this without a stack: it splits the row at
the calls that stay open, with rows in between in which everything is matched.

`settle` finds the open calls with a stack. `openCalls_iff_settle` identifies the two, so a row
leaves one list of open calls at most.
-/

namespace Chip8

/-- A call or a return. -/
inductive Turn where
  | call (returnTo : UInt16)
  | back
  deriving DecidableEq, Repr

/-- Rows in which every call is matched by a return and every return by a call. -/
inductive Balanced : List Turn → Prop where
  | nil : Balanced []
  | nest {address : UInt16} {inner rest : List Turn} (within : Balanced inner)
      (behind : Balanced rest) : Balanced (.call address :: (inner ++ .back :: rest))

/-- The calls of a row that no return matches, by where they go on, the last first. -/
inductive OpenCalls : List Turn → List UInt16 → Prop where
  | none {turns : List Turn} (matched : Balanced turns) : OpenCalls turns []
  | cons {address : UInt16} {earlier inner : List Turn} {addresses : List UInt16}
      (before : OpenCalls earlier addresses) (matched : Balanced inner) :
      OpenCalls (earlier ++ .call address :: inner) (address :: addresses)

/-- The open calls after a row of turns, if there is an open call for each of its returns. -/
def settle : List Turn → List UInt16 → Option (List UInt16)
  | [], addresses => some addresses
  | .call address :: rest, addresses => settle rest (address :: addresses)
  | .back :: rest, _ :: addresses => settle rest addresses
  | .back :: _, [] => none

theorem settle_append (first second : List Turn) (addresses : List UInt16) :
    settle (first ++ second) addresses = (settle first addresses).bind (settle second) := by
  induction first generalizing addresses with
  | nil => rfl
  | cons turn rest ih =>
      cases turn with
      | call address => exact ih (address :: addresses)
      | back =>
          cases addresses with
          | nil => rfl
          | cons address addresses => exact ih addresses

namespace Balanced

theorem append {first second : List Turn} (left : Balanced first) (right : Balanced second) :
    Balanced (first ++ second) := by
  induction left with
  | nil => exact right
  | nest within _ _ ih =>
      simp only [List.cons_append, List.append_assoc]
      exact .nest within ih

/-- A call, what is matched behind it, and its return. -/
theorem close {address : UInt16} {inner : List Turn} (matched : Balanced inner) :
    Balanced (.call address :: (inner ++ [.back])) := .nest matched .nil

/-- A balanced row leaves the open calls as they are. -/
theorem settle_eq {turns : List Turn} (matched : Balanced turns) (addresses : List UInt16) :
    settle turns addresses = some addresses := by
  induction matched generalizing addresses with
  | nil => rfl
  | @nest address inner rest _ _ within behind =>
      simp only [settle, settle_append, within, Option.bind_some]
      exact behind addresses

end Balanced

namespace OpenCalls

variable {turns : List Turn} {addresses : List UInt16} {address : UInt16}

theorem append {inner : List Turn} (before : OpenCalls turns addresses)
    (matched : Balanced inner) : OpenCalls (turns ++ inner) addresses := by
  cases before with
  | none earlier => exact .none (earlier.append matched)
  | cons before between =>
      simp only [List.append_assoc, List.cons_append]
      exact .cons before (between.append matched)

theorem call (before : OpenCalls turns addresses) :
    OpenCalls (turns ++ [.call address]) (address :: addresses) := .cons before .nil

theorem back (before : OpenCalls turns (address :: addresses)) :
    OpenCalls (turns ++ [.back]) addresses := by
  cases before with
  | cons before matched =>
      simp only [List.append_assoc, List.cons_append]
      exact before.append matched.close

/-- What a row leaves open is what the stack holds after it. -/
theorem settle_eq (calls : OpenCalls turns addresses) : settle turns [] = some addresses := by
  induction calls with
  | none matched => exact matched.settle_eq []
  | cons before matched ih =>
      simp only [settle_append, ih, Option.bind_some, settle]
      exact matched.settle_eq _

/-- Behind turns that leave the calls on a stack open, more turns leave open what they make of that
stack. -/
theorem of_settle {earlier : List Turn} {start : List UInt16} (before : OpenCalls earlier start)
    (settled : settle turns start = some addresses) : OpenCalls (earlier ++ turns) addresses := by
  induction turns generalizing earlier start with
  | nil =>
      cases settled
      rw [List.append_nil]
      exact before
  | cons turn rest ih =>
      rw [List.append_cons]
      cases turn with
      | call address => exact ih before.call settled
      | back =>
          cases start with
          | nil => cases settled
          | cons address start => exact ih before.back settled

end OpenCalls

theorem openCalls_iff_settle {turns : List Turn} {addresses : List UInt16} :
    OpenCalls turns addresses ↔ settle turns [] = some addresses := by
  constructor
  · intro calls
    exact calls.settle_eq
  · intro settled
    exact (OpenCalls.none .nil).of_settle settled

end Chip8
