/-!
# Configuration

What differs between historical machines, how strict to be about unknown opcodes, and the seed of
the random bytes.
-/

namespace Chip8

/-- Which register the shift instructions shift.  `copySecond` shifts the second register into the
first. -/
inductive ShiftMode where
  | inPlace
  | copySecond
deriving DecidableEq, Repr

inductive UnknownPolicy where
  | ignore
  | strict
deriving DecidableEq, Repr

/-- Without a seed, the random bytes come from the machine's source of chance. -/
structure Config where
  shift : ShiftMode := .inPlace
  unknown : UnknownPolicy := .ignore
  seed : Option UInt64 := none
deriving DecidableEq, Repr

namespace Config

def standard : Config := {}

def strict : Config :=
  { standard with unknown := .strict }

end Config

end Chip8
