/-!
# Numbers in base sixteen

Machine words are shown at a fixed width.  A text of width `n` holds the `n` lowest digits of the
number, the most significant one first, so a number below `16 ^ n` is shown in full.
-/

namespace Chip8.Text

def hexDigit (n : Nat) : Char :=
  if n < 10 then Char.ofNat (48 + n) else Char.ofNat (87 + n)

def hexDigits : Nat → Nat → List Char
  | 0, _ => []
  | width + 1, n => hexDigits width (n / 16) ++ [hexDigit (n % 16)]

def hex (width n : Nat) : String :=
  String.ofList (hexDigits width n)

/-- One digit in upper case, as register names are written. -/
def upperHexDigit (n : Nat) : String :=
  (hexDigit (n % 16)).toUpper.toString

@[simp]
theorem length_hexDigits (width n : Nat) : (hexDigits width n).length = width := by
  induction width generalizing n with
  | zero => rfl
  | succ width ih => simp [hexDigits, ih]

end Chip8.Text
