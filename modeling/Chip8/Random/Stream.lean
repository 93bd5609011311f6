/-!
# Random streams

A stream is an endless row of bytes together with a position in it. The byte at a position does not
depend on what was drawn before, so a stream that has drawn `n` bytes is the stream of the same bytes
at position `n`.
-/

namespace Chip8.Random

/-- An endless row of bytes and the number of those that were drawn. -/
structure Stream where
  bytes : Nat → UInt8
  position : Nat

namespace Stream

/-- The stream of a row of bytes from its first on. -/
def ofBytes (bytes : Nat → UInt8) : Stream := ⟨bytes, 0⟩

/-- The next byte. -/
def byte (stream : Stream) : UInt8 := stream.bytes stream.position

def advance (stream : Stream) : Stream :=
  { stream with position := stream.position + 1 }

end Stream

end Chip8.Random
