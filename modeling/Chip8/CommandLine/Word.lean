/-!
# Words of a command line

How a word is taken before it is known what is expected at its place.
-/

namespace Chip8.CommandLine

inductive Word where
  /-- Two dashes: every word after it is plain. -/
  | terminator
  /-- Two dashes and a name, which may have a value attached. -/
  | long (name : String) (value : Option String)
  /-- A dash and letters, of which the first counts. -/
  | short (letter : Char)
  | plain (text : String)
deriving DecidableEq, Repr

/-- Splits at the first equals sign. -/
def splitValue : List Char → List Char × Option (List Char)
  | [] => ([], none)
  | '=' :: rest => ([], some rest)
  | c :: rest =>
    let (name, value) := splitValue rest
    (c :: name, value)

def Word.ofString (text : String) : Word :=
  match text.toList with
  | ['-', '-'] => .terminator
  | '-' :: '-' :: rest =>
    let (name, value) := splitValue rest
    .long (String.ofList name) (value.map String.ofList)
  | '-' :: letter :: _ => .short letter
  | _ => .plain text

end Chip8.CommandLine
