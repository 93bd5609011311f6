import Chip8.Random.Rotation

/-!
# Congruential generator

A linear congruential sequence of sixty-four-bit states, each of which is condensed to a word of
thirty-two bits by a shift and a rotation. It stretches a seed into a key.
-/

namespace Chip8.Random.Congruential

/-- The factor from a state to the next. -/
def multiplier : UInt64 := 6364136223846793005

def increment : UInt64 := 11634580027462260723

def advance (state : UInt64) : UInt64 :=
  state * multiplier + increment

/-- The word that a state gives: bits from the middle, turned by the top five bits. -/
def output (state : UInt64) : UInt32 :=
  rotateRight (((state >>> 18) ^^^ state) >>> 27).toUInt32 (state >>> 59).toUInt32

/-- The first `count` words of the sequence that starts behind a state. -/
def words : (count : Nat) → UInt64 → List UInt32
  | 0, _ => []
  | count + 1, state => output (advance state) :: words count (advance state)

@[simp] theorem length_words (count : Nat) (state : UInt64) :
    (words count state).length = count := by
  induction count generalizing state with
  | zero => rfl
  | succ count ih => simp [words, ih]

end Chip8.Random.Congruential
