import Chip8.Opcode

/-!
# Font

The sprites of the sixteen hexadecimal digits, which every machine holds in memory. A glyph is
five rows of four pixels, kept in the upper half of a byte each.
-/

namespace Chip8.Font

/-- The number of bytes of a glyph. -/
def glyphSize : Nat := 5

/-- The glyphs of the digits in order, one after the other. -/
def bytes : List UInt8 :=
  [0xF0, 0x90, 0x90, 0x90, 0xF0,
   0x20, 0x60, 0x20, 0x20, 0x70,
   0xF0, 0x10, 0xF0, 0x80, 0xF0,
   0xF0, 0x10, 0xF0, 0x10, 0xF0,
   0x90, 0x90, 0xF0, 0x10, 0x10,
   0xF0, 0x80, 0xF0, 0x10, 0xF0,
   0xF0, 0x80, 0xF0, 0x90, 0xF0,
   0xF0, 0x10, 0x20, 0x40, 0x40,
   0xF0, 0x90, 0xF0, 0x90, 0xF0,
   0xF0, 0x90, 0xF0, 0x10, 0xF0,
   0xF0, 0x90, 0xF0, 0x90, 0x90,
   0xE0, 0x90, 0xE0, 0x90, 0xE0,
   0xF0, 0x80, 0x80, 0x80, 0xF0,
   0xE0, 0x90, 0x90, 0x90, 0xE0,
   0xF0, 0x80, 0xF0, 0x80, 0xF0,
   0xF0, 0x80, 0xF0, 0x80, 0x80]

/-- The rows of the glyph of a digit. -/
def glyph (digit : Digit) : List UInt8 :=
  (bytes.drop (glyphSize * digit.val)).take glyphSize

theorem length_bytes : bytes.length = 16 * glyphSize := rfl

end Chip8.Font
