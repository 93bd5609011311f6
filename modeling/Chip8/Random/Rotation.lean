/-!
# Rotation of words

Shifts of thirty-two-bit words that bring the bits that fall out at one end back in at the other.
A shift distance counts modulo the width of the word, so a rotation by zero leaves a word as it is.
-/

namespace Chip8.Random

/-- Move each bit up by `count` places, around the end. -/
def rotateLeft (word count : UInt32) : UInt32 :=
  word <<< count ||| word >>> (32 - count)

/-- Move each bit down by `count` places, around the end. -/
def rotateRight (word count : UInt32) : UInt32 :=
  word >>> count ||| word <<< (32 - count)

@[simp] theorem rotateLeft_zero (word : UInt32) : rotateLeft word 0 = word := by
  apply UInt32.toNat_inj.mp
  simp [rotateLeft]

@[simp] theorem rotateRight_zero (word : UInt32) : rotateRight word 0 = word := by
  apply UInt32.toNat_inj.mp
  simp [rotateRight]

end Chip8.Random
