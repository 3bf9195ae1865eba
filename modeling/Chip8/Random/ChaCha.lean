/-!
# The ChaCha12 keystream

A block of sixteen words is computed from an eight-word key and the block's number: the constants,
the key, the number and two zero words are mixed by six double rounds, and the start is added to the
result.  The blocks `0`, `1`, `2`, … in a row are the keystream, so word `i` of it is word `i % 16` of
block `i / 16`.
-/

namespace Chip8.ChaCha

abbrev Key := Vector UInt32 8
abbrev Block := Vector UInt32 16

def rotateLeft (x n : UInt32) : UInt32 :=
  (x <<< n) ||| (x >>> (32 - n))

def quarterRound (s : Block) (a b c d : Fin 16) : Block :=
  let a₁ := s[a] + s[b]
  let d₁ := rotateLeft (s[d] ^^^ a₁) 16
  let c₁ := s[c] + d₁
  let b₁ := rotateLeft (s[b] ^^^ c₁) 12
  let a₂ := a₁ + b₁
  let d₂ := rotateLeft (d₁ ^^^ a₂) 8
  let c₂ := c₁ + d₂
  let b₂ := rotateLeft (b₁ ^^^ c₂) 7
  (((s.set a a₂).set b b₂).set c c₂).set d d₂

def columns (s : Block) : Block :=
  quarterRound (quarterRound (quarterRound (quarterRound s 0 4 8 12) 1 5 9 13) 2 6 10 14) 3 7 11 15

def diagonals (s : Block) : Block :=
  quarterRound (quarterRound (quarterRound (quarterRound s 0 5 10 15) 1 6 11 12) 2 7 8 13) 3 4 9 14

def mix : Nat → Block → Block
  | 0, s => s
  | rounds + 1, s => mix rounds (diagonals (columns s))

def start (key : Key) (number : UInt64) : Block :=
  #v[0x61707865, 0x3320646E, 0x79622D32, 0x6B206574,
    key[0], key[1], key[2], key[3], key[4], key[5], key[6], key[7],
    number.toUInt32, (number >>> 32).toUInt32, 0, 0]

def doubleRounds : Nat := 6

def block (key : Key) (number : UInt64) : Block :=
  (mix doubleRounds (start key number)).zipWith (· + ·) (start key number)

def word (key : Key) (i : Nat) : UInt32 :=
  (block key (UInt64.ofNat (i / 16)))[i % 16]

end Chip8.ChaCha
