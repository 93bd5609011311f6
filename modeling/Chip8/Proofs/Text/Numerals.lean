import Chip8.Text.Hex

/-!
# Numerals are read back

Faults and events show numbers as hexadecimal numerals. A numeral stands for one number only, whatever
zeros it is padded with, and one of a byte or a word has as many digits as it was asked for, so that
numerals which are put next to each other can be told apart.
-/

namespace Chip8.Text

end Chip8.Text
