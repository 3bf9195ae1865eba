import Chip8.Random.ChaCha

/-!
# The source of random bytes

A source is a keystream and the number of bytes drawn from it so far.  The `j`-th byte drawn is the
lowest byte of the `j`-th word of the stream, whatever happened in between.  A 64-bit seed is
stretched to a key by a linear congruential sequence whose states are permuted into words.
-/

namespace Chip8

structure RandomSource where
  key : ChaCha.Key
  drawn : Nat
deriving DecidableEq

namespace RandomSource

/-- The states of the congruential sequence that starts at the seed. -/
def seedState (seed : UInt64) : Nat → UInt64
  | 0 => seed
  | n + 1 => seedState seed n * 6364136223846793005 + 11634580027462260723

def rotateRight (x n : UInt32) : UInt32 :=
  (x >>> n) ||| (x <<< (32 - n))

def permute (s : UInt64) : UInt32 :=
  rotateRight (((s >>> 18) ^^^ s) >>> 27).toUInt32 (s >>> 59).toUInt32

def keyOfSeed (seed : UInt64) : ChaCha.Key :=
  Vector.ofFn fun i => permute (seedState seed (i.val + 1))

def ofSeed (seed : UInt64) : RandomSource :=
  ⟨keyOfSeed seed, 0⟩

/-- Byte number `j` of the source, counted from its beginning. -/
def byteAt (r : RandomSource) (j : Nat) : UInt8 :=
  (ChaCha.word r.key j).toUInt8

def byte (r : RandomSource) : UInt8 :=
  r.byteAt r.drawn

def next (r : RandomSource) : RandomSource :=
  { r with drawn := r.drawn + 1 }

@[simp]
theorem byteAt_next (r : RandomSource) (j : Nat) : r.next.byteAt j = r.byteAt j := rfl

@[simp]
theorem drawn_next (r : RandomSource) : r.next.drawn = r.drawn + 1 := rfl

end RandomSource

end Chip8
