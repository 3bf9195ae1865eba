import Chip8.CommandLine.Number
import Chip8.CommandLine.Settings
import Chip8.CommandLine.Word

/-!
# Reading the command line

The words are taken from left to right.  An option may have its value attached or in the next word.
A value that stands in a word of its own is not judged at once but when the next word has been
recognised, so a word that cannot be recognised is refused before a bad value to its left.
-/

namespace Chip8.CommandLine

/-- Why a command line is refused. -/
inductive Refusal where
  | missingRom
  | unknownArgument
  /-- Something is given twice. -/
  | repeated
  /-- A switch has a value attached. -/
  | unexpectedValue
  /-- An option has no value, or a path is empty. -/
  | missingValue
  | malformedValue
  /-- Help is asked for. -/
  | help
deriving DecidableEq, Repr

def Refusal.message : Refusal → String
  | missingRom => "no program image is given"
  | unknownArgument => "there is an unexpected argument"
  | repeated => "an argument is given more than once"
  | unexpectedValue => "a switch takes no value"
  | missingValue => "an option lacks its value"
  | malformedValue => "a value is malformed"
  | help => "usage: [--speed N] [--legacy-shift] [--strict] [--seed N] [--mute] " ++
      "[--log-file PATH] [--log-level LEVEL] [--frames N] ROM"

/-- What takes a value. -/
inductive Slot where
  | rom | speed | seed | logFile | logLevel | frames
deriving DecidableEq, Repr

inductive Switch where
  | legacyShift | strict | mute
deriving DecidableEq, Repr

inductive Named where
  | option (slot : Slot)
  | switch (switch : Switch)
  | help
deriving DecidableEq, Repr

def named? : String → Option Named
  | "speed" => some (.option .speed)
  | "legacy-shift" => some (.switch .legacyShift)
  | "strict" => some (.switch .strict)
  | "seed" => some (.option .seed)
  | "mute" => some (.switch .mute)
  | "log-file" => some (.option .logFile)
  | "log-level" => some (.option .logLevel)
  | "frames" => some (.option .frames)
  | "help" => some .help
  | _ => none

structure Pending where
  slot : Slot
  value : Option String
deriving DecidableEq

/-- What has been read so far. -/
structure Draft where
  rom : Option String := none
  speed : Option UInt32 := none
  legacyShift : Bool := false
  strict : Bool := false
  seed : Option UInt64 := none
  mute : Bool := false
  logFile : Option String := none
  logLevel : Option Threshold := none
  frames : Option UInt64 := none
  /-- What is still to be judged. -/
  pending : Option Pending := none
  /-- The terminator has been read. -/
  trailing : Bool := false
deriving DecidableEq

namespace Draft

def isGiven (d : Draft) : Slot → Bool
  | .rom => d.rom.isSome
  | .speed => d.speed.isSome
  | .seed => d.seed.isSome
  | .logFile => d.logFile.isSome
  | .logLevel => d.logLevel.isSome
  | .frames => d.frames.isSome

def path (text : String) : Except Refusal String :=
  if text.isEmpty then .error .missingValue else .ok text

def wellFormed {α : Type} : Option α → Except Refusal α
  | some a => .ok a
  | none => .error .malformedValue

def word64 (text : String) : Except Refusal UInt64 :=
  (wellFormed (unsigned? UInt64.size text.toList)).map UInt64.ofNat

def word32 (text : String) : Except Refusal UInt32 :=
  (wellFormed (signed? UInt32.size text.toList)).map UInt32.ofNat

def store (d : Draft) (slot : Slot) (text : String) : Except Refusal Draft :=
  match slot with
  | .rom => (path text).map fun rom => { d with rom := some rom }
  | .speed => (word32 text).map fun speed => { d with speed := some speed }
  | .seed => (word64 text).map fun seed => { d with seed := some seed }
  | .logFile => (path text).map fun file => { d with logFile := some file }
  | .logLevel =>
      (wellFormed (Threshold.ofName? text)).map fun level => { d with logLevel := some level }
  | .frames => (word64 text).map fun frames => { d with frames := some frames }

/-- That a slot is taken is noticed before its value is looked at. -/
def assign (d : Draft) (slot : Slot) : Option String → Except Refusal Draft
  | none => .error .missingValue
  | some text => if d.isGiven slot then .error .repeated else d.store slot text

/-- Judges what is pending. -/
def settle (d : Draft) : Except Refusal Draft :=
  match d.pending with
  | none => .ok d
  | some p => { d with pending := none }.assign p.slot p.value

def isOn (d : Draft) : Switch → Bool
  | .legacyShift => d.legacyShift
  | .strict => d.strict
  | .mute => d.mute

def turnOn (d : Draft) : Switch → Draft
  | .legacyShift => { d with legacyShift := true }
  | .strict => { d with strict := true }
  | .mute => { d with mute := true }

def flip (d : Draft) (switch : Switch) : Except Refusal Draft :=
  if d.isOn switch then .error .repeated else .ok (d.turnOn switch)

def acceptNamed (d : Draft) (named : Named) (value : Option String) : Except Refusal Draft := do
  match named, value with
  | .option slot, some text => (← d.settle).assign slot (some text)
  | .option slot, none => return { ← d.settle with pending := some ⟨slot, none⟩ }
  | .switch _, some _ | .help, some _ => throw .unexpectedValue
  | .switch switch, none => (← d.settle).flip switch
  | .help, none =>
    let _ ← d.settle
    throw .help

def hasRom (d : Draft) : Bool :=
  d.rom.isSome || d.pending.any fun p => p.slot = .rom

def acceptPlain (d : Draft) (text : String) : Except Refusal Draft := do
  if d.hasRom then
    throw .unknownArgument
  return { ← d.settle with pending := some ⟨.rom, some text⟩ }

def acceptWord (d : Draft) : Word → Except Refusal Draft
  | .terminator => .ok { d with trailing := true }
  | .long name value =>
    match named? name with
    | some named => d.acceptNamed named value
    | none => .error .unknownArgument
  | .short 'h' => d.acceptNamed .help none
  | .short _ => .error .unknownArgument
  | .plain text =>
    match d.pending with
    | some ⟨slot, none⟩ => .ok { d with pending := some ⟨slot, some text⟩ }
    | _ => d.acceptPlain text

def accept (d : Draft) (text : String) : Except Refusal Draft :=
  if d.trailing then d.acceptPlain text else d.acceptWord (.ofString text)

def finish (d : Draft) : Except Refusal Settings := do
  let d ← d.settle
  match d.rom with
  | none => throw .missingRom
  | some rom =>
    return {
      rom
      speed := d.speed.getD 10
      legacyShift := d.legacyShift
      strict := d.strict
      seed := d.seed
      mute := d.mute
      logFile := d.logFile
      logLevel := d.logLevel.getD (.upTo .info)
      frames := d.frames }

end Draft

def parse (words : List String) : Except Refusal Settings := do
  (← words.foldlM Draft.accept {}).finish

end Chip8.CommandLine
