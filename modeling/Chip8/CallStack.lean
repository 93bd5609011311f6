import Chip8.Fault

/-!
# Call stack

The return addresses of the calls that are open. A call opens at most as many as a limit allows,
and a return closes the innermost one. The number of open calls is kept beside them, because a
machine asks for it at every call and after every cycle.
-/

namespace Chip8

/-- The open calls, each by the address to go on at, the innermost first. -/
structure CallStack where
  returns : List UInt16
  /-- The number of open calls. -/
  depth : Nat
  depth_eq : depth = returns.length
  deriving DecidableEq

namespace CallStack

@[ext] theorem ext {left right : CallStack} (same : left.returns = right.returns) :
    left = right := by
  cases left
  cases right
  simp_all

def empty : CallStack where
  returns := []
  depth := 0
  depth_eq := rfl

/-- One more open call around which the others are. -/
def cons (address : UInt16) (stack : CallStack) : CallStack where
  returns := address :: stack.returns
  depth := stack.depth + 1
  depth_eq := by simp [stack.depth_eq]

/-- Open a call that goes on at `address`, unless `limit` calls are open. -/
def push (stack : CallStack) (limit : Nat) (address : UInt16) : Except Fault CallStack :=
  if stack.depth < limit then .ok (stack.cons address) else .error (.stackOverflow limit)

/-- Close the innermost call: where to go on, and the calls that stay open. -/
def pop (stack : CallStack) : Except Fault (UInt16 × CallStack) :=
  match innermost : stack.returns with
  | [] => .error .stackUnderflow
  | address :: rest => .ok (address, ⟨rest, stack.depth - 1, by simp [stack.depth_eq, innermost]⟩)

@[simp] theorem returns_empty : empty.returns = [] := rfl

@[simp] theorem returns_cons (address : UInt16) (stack : CallStack) :
    (stack.cons address).returns = address :: stack.returns := rfl

@[simp] theorem depth_cons (address : UInt16) (stack : CallStack) :
    (stack.cons address).depth = stack.depth + 1 := rfl

@[simp] theorem pop_cons (address : UInt16) (stack : CallStack) :
    (stack.cons address).pop = .ok (address, stack) := by
  simp only [pop, cons]
  rfl

theorem pop_eq_error_iff {stack : CallStack} {fault : Fault} :
    stack.pop = .error fault ↔ stack = empty ∧ fault = .stackUnderflow := by
  simp only [pop, CallStack.ext_iff, returns_empty]
  split
  next none => simp [none, eq_comm]
  next some => simp [some]

/-- A return closes the call that was opened last, and leaves the others as they were. -/
theorem pop_eq_ok_iff {stack after : CallStack} {address : UInt16} :
    stack.pop = .ok (address, after) ↔ stack = after.cons address := by
  constructor
  · intro popped
    simp only [pop] at popped
    split at popped
    next => contradiction
    next found =>
      cases popped
      exact CallStack.ext found
  · rintro rfl
    exact pop_cons address after

theorem push_eq_ok_iff {stack after : CallStack} {limit : Nat} {address : UInt16} :
    stack.push limit address = .ok after ↔ stack.depth < limit ∧ after = stack.cons address := by
  simp only [push]
  split
  next room => simp [room, eq_comm]
  next full => simp [full]

theorem push_eq_error_iff {stack : CallStack} {limit : Nat} {address : UInt16} {fault : Fault} :
    stack.push limit address = .error fault ↔
      limit ≤ stack.depth ∧ fault = .stackOverflow limit := by
  simp only [push]
  split
  next room => simp [Nat.not_le.mpr room]
  next full => simp [Nat.le_of_not_lt full, eq_comm]

end CallStack

end Chip8
