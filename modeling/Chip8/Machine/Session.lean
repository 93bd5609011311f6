import Chip8.Machine.Frame

/-!
# Sessions

The requests by which a host drives a machine. A session is a list of requests met one after the
other by one machine; a request that is refused does not end it.
-/

namespace Chip8

/-- A request of a host that may change the machine. -/
inductive Request where
  /-- Put a rom where the program starts. -/
  | loadRom (rom : Rom)
  /-- Put bytes into memory from an address on. -/
  | load (bytes : List UInt8) (start : UInt16)
  /-- Run one cycle. -/
  | cycle
  /-- Run up to a number of cycles and tick the timers. -/
  | frame (limit : Nat)
  /-- Tick the timers. -/
  | tick
  /-- Press a key or let go of it. -/
  | setKey (key : UInt8) (pressed : Bool)
  /-- Let go of all keys. -/
  | releaseKeys
  /-- Ask whether the screen may have changed since this was last asked. -/
  | takeRedraw
  deriving DecidableEq, Repr

/-- The value of a request that was met. -/
inductive Answer where
  /-- There is nothing to say. -/
  | done
  /-- What the last cycle did. -/
  | progress (progress : Progress)
  /-- Whether the screen was drawn on or cleared. -/
  | redraw (wanted : Bool)
  deriving DecidableEq, Repr

namespace Machine

/-- Press the key with a number, or let go of it. -/
def setKey (machine : Machine) (key : UInt8) (pressed : Bool) : Reply Unit :=
  match Key.ofByte key with
  | .ok key => .done { machine with keypad := machine.keypad.set key pressed } ()
  | .error fault => .refused machine fault

theorem setKey_of_named {machine : Machine} {number : UInt8} {key : Key}
    (named : number.toNat = key.val) (pressed : Bool) :
    machine.setKey number pressed =
      .done { machine with keypad := machine.keypad.set key pressed } () := by
  rw [setKey, Key.ofByte_eq_ok_iff.mpr named]

theorem setKey_of_unnamed {machine : Machine} {number : UInt8} (above : 16 ≤ number.toNat)
    (pressed : Bool) : machine.setKey number pressed = .refused machine (.invalidKey number) := by
  rw [setKey, Key.ofByte_eq_error_iff.mpr ⟨above, rfl⟩]

def releaseKeys (machine : Machine) : Reply Unit :=
  .done { machine with keypad := .released } ()

/-- Whether the screen was drawn on or cleared since this was last asked. -/
def takeRedraw (machine : Machine) : Reply Bool :=
  .done { machine with redraw := false } machine.redraw

/-- Meet a request. -/
def perform (machine : Machine) : Request → Reply Answer
  | .loadRom rom => (machine.loadRom rom).map fun _ => .done
  | .load bytes start => (machine.load bytes start).map fun _ => .done
  | .cycle => machine.cycle.map .progress
  | .frame limit => (machine.runFrame limit).map .progress
  | .tick => machine.tick.map fun _ => .done
  | .setKey key pressed => (machine.setKey key pressed).map fun _ => .done
  | .releaseKeys => machine.releaseKeys.map fun _ => .done
  | .takeRedraw => machine.takeRedraw.map .redraw

/-- Meet requests one after the other: the reply to each, in order. -/
def performAll (machine : Machine) : List Request → List (Reply Answer)
  | [] => []
  | request :: rest =>
      let reply := machine.perform request
      reply :: reply.machine.performAll rest

/-- The machine after meeting requests one after the other. -/
def afterAll (machine : Machine) (requests : List Request) : Machine :=
  requests.foldl (fun machine request => (machine.perform request).machine) machine

theorem afterAll_append (machine : Machine) (first second : List Request) :
    machine.afterAll (first ++ second) = (machine.afterAll first).afterAll second :=
  List.foldl_append

end Machine

end Chip8
