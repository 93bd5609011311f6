import Chip8.Random.ChaCha
import Chip8.Random.Congruential
import Chip8.Random.Stream

/-!
# Sources of random bytes

A machine takes the generator of its random bytes from outside. Of a generator it needs to know which
bytes come one after the other under a seed, and which the host has for a machine without one; what
the bytes are makes no difference to how a machine uses them.

`Yields` is what the documentation of a generator of words promises: under a seed it gives a fixed
row of words, and a byte is the low byte of the next word. `chacha` is the source that the executable
draws from, and `chacha_yields` that it keeps this promise.
-/

namespace Chip8.Random

/-- A generator of bytes. -/
structure Source where
  /-- The bytes that are drawn one after the other under a seed. -/
  seeded : UInt64 → Nat → UInt8
  /-- The bytes that the host has for a machine without a seed. -/
  unseeded : Nat → UInt8

namespace Source

/-- Under the seed the generator gives these words in order, and a byte is the low byte of the next
word. -/
def Yields (source : Source) (seed : UInt64) (word : Nat → UInt32) : Prop :=
  ∀ count, source.seeded seed count = (word count).toUInt8

/-! ## ChaCha -/

/-- The word at a position under a key: block after block, the words of each in order. -/
def wordAt (key : ChaCha.Key) (position : Nat) : UInt32 :=
  (ChaCha.block key (position / 16))[position % 16]

/-- The key of a seed: the first eight words of its congruential sequence. -/
def keyOfSeed (seed : UInt64) : ChaCha.Key :=
  ⟨(Congruential.words 8 seed).toArray, by simp⟩

/-- The low bytes of the ChaCha words, under the key of a seed or else under that of the host. -/
def chacha (hostKey : ChaCha.Key) : Source where
  seeded seed count := (wordAt (keyOfSeed seed) count).toUInt8
  unseeded count := (wordAt hostKey count).toUInt8

/-- A host that has a key draws from ChaCha. -/
instance : Coe ChaCha.Key Source := ⟨chacha⟩

/-- The ChaCha source of a host whose own key is all zeros. -/
def zeroKeyed : Source := chacha (.replicate 8 0)

theorem chacha_yields (hostKey : ChaCha.Key) (seed : UInt64) :
    (chacha hostKey).Yields seed (wordAt (keyOfSeed seed)) := fun _ => rfl

end Source

end Chip8.Random
