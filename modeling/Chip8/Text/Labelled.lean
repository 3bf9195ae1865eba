/-!
# Values spelled with their field names

A value is spelled as its name, followed by what it carries: nothing, one number in parentheses,
or named numbers in braces.  Numbers are decimal.
-/

namespace Chip8.Text

def field (label : String) (value : Nat) : String :=
  label ++ ": " ++ toString value

def labelled (name : String) (fields : List (String × Nat)) : String :=
  name ++ " \x7b " ++ ", ".intercalate (fields.map fun f => field f.1 f.2) ++ " \x7d"

def wrapped (name : String) (value : Nat) : String :=
  name ++ "(" ++ toString value ++ ")"

end Chip8.Text
