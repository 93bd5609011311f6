import Chip8.Random.Rotation

/-!
# ChaCha blocks

The ChaCha function with eight rounds: it turns a key and a block number into sixteen words. The
block number is sixty-four bits wide, its low word first, and the last two words of the input are
zero.
-/

namespace Chip8.Random.ChaCha

abbrev Key := Vector UInt32 8

/-- Sixteen words, read as four rows of four. -/
abbrev Block := Vector UInt32 16

/-- The words in front of every key. -/
def constants : Vector UInt32 4 :=
  #v[0x61707865, 0x3320646e, 0x79622d32, 0x6b206574]

/-- The block that the rounds start from. -/
def input (key : Key) (number : Nat) : Block :=
  constants ++ key ++ #v[UInt32.ofNat number, UInt32.ofNat (number >>> 32), 0, 0]

/-- One step of a quarter round: add the word at `source` to the one at `sum`, mix the sum into the
word at `target` and rotate that word. -/
def mix (block : Block) (sum source target : Fin 16) (count : UInt32) : Block :=
  let added := block[sum.val] + block[source.val]
  let mixed := rotateLeft (block[target.val] ^^^ added) count
  (block.set sum.val added).set target.val mixed

/-- The place of a word in the rows, going around the end of its row. -/
def place (row : Fin 4) (column : Nat) : Fin 16 :=
  ⟨4 * row.val + column % 4, by omega⟩

/-- Mix the four words of a column that moves on by `slant` places from row to row. -/
def quarterRound (slant : Nat) (block : Block) (column : Nat) : Block :=
  let a := place ⟨0, by decide⟩ column
  let b := place ⟨1, by decide⟩ (column + slant)
  let c := place ⟨2, by decide⟩ (column + 2 * slant)
  let d := place ⟨3, by decide⟩ (column + 3 * slant)
  let block := mix block a b d 16
  let block := mix block c d b 12
  let block := mix block a b d 8
  mix block c d b 7

/-- Mix all four columns, each moving on by `slant` places from row to row. -/
def round (slant : Nat) (block : Block) : Block :=
  (List.range 4).foldl (quarterRound slant) block

/-- A round on the columns and a round on the diagonals. -/
def doubleRound (block : Block) : Block :=
  round 1 (round 0 block)

/-- Eight rounds on an input, added to the input word by word. -/
def scramble (block : Block) : Block :=
  let mixed := doubleRound (doubleRound (doubleRound (doubleRound block)))
  Vector.zipWith (· + ·) mixed block

/-- The block with a number under a key. -/
def block (key : Key) (number : Nat) : Block :=
  scramble (input key number)

end Chip8.Random.ChaCha
