/-!
# Hexadecimal numerals

Upper-case hexadecimal text of natural numbers, padded with zeros to a least width. Faults and
events show addresses, opcodes and bytes in this form.
-/

namespace Chip8.Text

/-- The upper-case hexadecimal numeral of `value`, with zeros in front up to `width` digits. -/
def hex (width value : Nat) : String :=
  String.ofList (((Nat.toDigits 16 value).map Char.toUpper).leftpad width '0')

/-- An address as faults about the machine's layout and events show it: at least three digits. -/
def address (value : Nat) : String :=
  "0x" ++ hex 3 value

end Chip8.Text
