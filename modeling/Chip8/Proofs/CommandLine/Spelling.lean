import Chip8.CommandLine.Parse
import Mathlib.Data.List.Forall2

/-!
# Spellings

What stands on a command line may be written in several ways: a number with a plus sign and zeros
before its digits, a level in either letter case, a value attached to a name or not.  Each way of
writing it is read as what it stands for.
-/

namespace Chip8.CommandLine

/-! ## Numbers -/

/-- The decimal digits of a number, with any number of zeros before them and perhaps a plus sign
before all. -/
def SpellsNumber (n : Nat) (text : String) : Prop :=
  ∃ zeros, text.toList = List.replicate zeros '0' ++ Nat.toDigits 10 n ∨
    text.toList = '+' :: (List.replicate zeros '0' ++ Nat.toDigits 10 n)

variable {bound n : Nat}

/-- The letters of a level's name, each as it is or in lower case. -/
def SpellsLevel (level : Threshold) (text : String) : Prop :=
  List.Forall₂ (fun c letter => c = letter ∨ c = letter.toLower) text.toList level.name.toList

def Slot.name : Slot → String
  | .rom => "rom"
  | .speed => "speed"
  | .seed => "seed"
  | .logFile => "log-file"
  | .logLevel => "log-level"
  | .frames => "frames"

def Switch.name : Switch → String
  | .legacyShift => "legacy-shift"
  | .strict => "strict"
  | .mute => "mute"

def Named.name : Named → String
  | .option slot => slot.name
  | .switch which => which.name
  | .help => "help"

def Named.word (named : Named) : String :=
  "--" ++ named.name

/-- The word with a value attached. -/
def Named.wordWith (named : Named) (value : String) : String :=
  named.word ++ "=" ++ value

/-- Cannot be taken for the name of anything. -/
def Undashed (text : String) : Prop :=
  text.toList.head? ≠ some '-'

end Chip8.CommandLine
