import Chip8.Text.Invisible

/-!
# Quoted characters

A character in single quotes.  The quote itself, the backslash and the control characters with a
short name are escaped by a backslash, and what has no visible form of its own is given by its
number in base sixteen.
-/

namespace Chip8.Text

/-- As many digits as the number needs, and at least one. -/
def hexNumber (n : Nat) : String :=
  String.ofList (Nat.toDigits 16 n)

def byNumber (c : Char) : String :=
  "\\u\x7b" ++ hexNumber c.toNat ++ "\x7d"

def escaped (c : Char) : String :=
  if c = '\x00' then "\\0"
  else if c = '\t' then "\\t"
  else if c = '\r' then "\\r"
  else if c = '\n' then "\\n"
  else if c = '\'' then "\\'"
  else if c = '\\' then "\\\\"
  else if isInvisible c then byNumber c
  else c.toString

def quoted (c : Char) : String :=
  "'" ++ escaped c ++ "'"

end Chip8.Text
