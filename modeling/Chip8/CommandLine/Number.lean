/-!
# Numbers on the command line

A number is a run of decimal digits, at least one, which a plus sign may precede.  Where a signed
number is read before its range is looked at, a minus sign may precede it too, so zero may be given
with either sign.
-/

namespace Chip8.CommandLine

def addDigit (n : Nat) (c : Char) : Option Nat :=
  if c.isDigit then some (10 * n + (c.toNat - 48)) else none

def digits? (text : List Char) : Option Nat :=
  if text.isEmpty then none else text.foldlM addDigit 0

def below? (bound : Nat) (n : Nat) : Option Nat :=
  if n < bound then some n else none

def unsigned? (bound : Nat) : List Char → Option Nat
  | '+' :: text => digits? text >>= below? bound
  | text => digits? text >>= below? bound

/-- Of the numbers with a minus sign only zero is in range. -/
def signed? (bound : Nat) : List Char → Option Nat
  | '-' :: text => digits? text >>= below? 1
  | text => unsigned? bound text

end Chip8.CommandLine
