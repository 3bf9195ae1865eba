import Chip8.Fault
import Chip8.Instruction.Decode
import Chip8.Instruction.Text
import Chip8.Keypad
import Chip8.Text.Quoted

/-!
# Records

A journal is an account of a run, one record for each event worth telling.  A record has a level,
and a reader who is interested in a level sees the records of that level and of the graver ones.
-/

namespace Chip8

open Text (hex upperHexDigit)

inductive Level where
  | error | warn | info | debug | trace
deriving DecidableEq, Repr

namespace Level

/-- Zero for the gravest. -/
def rank : Level → Nat
  | error => 0
  | warn => 1
  | info => 2
  | debug => 3
  | trace => 4

def name : Level → String
  | error => "ERROR"
  | warn => "WARN"
  | info => "INFO"
  | debug => "DEBUG"
  | trace => "TRACE"

/-- The name, filled up with blanks to the width of the longest one. -/
def paddedName (l : Level) : String :=
  String.ofList (l.name.toList.rightpad 5 ' ')

end Level

/-- The least grave level that is still of interest; `off` lets nothing through. -/
inductive Threshold where
  | off
  | upTo (level : Level)
deriving DecidableEq, Repr

namespace Threshold

def admits : Threshold → Level → Bool
  | off, _ => false
  | upTo limit, level => decide (level.rank ≤ limit.rank)

def name : Threshold → String
  | off => "OFF"
  | upTo level => level.name

def all : List Threshold :=
  [off, upTo .error, upTo .warn, upTo .info, upTo .debug, upTo .trace]

/-- Reads a name in any letter case. -/
def ofName? (text : String) : Option Threshold :=
  all.find? fun threshold => text.toUpper == threshold.name

end Threshold

inductive Record where
  | loaded (bytes : Nat)
  | decoded (pc : UInt16) (opcode : Opcode)
  | skipped (opcode : Opcode) (pc : UInt16)
  | halting (pc : UInt16) (fault : Fault)
  | waiting (x : Register)
  | resumed (key : UInt8) (x : Register)
  | stopped (frames : Nat)
  | unmapped (char : Char)
deriving DecidableEq, Repr

namespace Record

def level : Record → Level
  | halting .. => .error
  | skipped .. | unmapped _ => .warn
  | loaded _ | waiting _ | resumed .. | stopped _ => .info
  | decoded .. => .trace

/-- The part of the program that a record speaks for. -/
def source : Record → String
  | stopped _ => "chip8_vm::environment"
  | unmapped _ => "chip8_vm::input"
  | _ => "chip8_vm::interpreter"

def message : Record → String
  | loaded bytes => "loaded " ++ toString bytes ++ " byte program"
  | decoded pc opcode =>
      "0x" ++ hex 4 pc.toNat ++ ": " ++ hex 4 opcode.toNat ++ " " ++
        (Instruction.decode opcode).text
  | skipped opcode pc =>
      "skipping unknown opcode 0x" ++ hex 4 opcode.toNat ++ " at 0x" ++ hex 4 pc.toNat
  | halting pc fault => "halting at pc 0x" ++ hex 4 pc.toNat ++ ": " ++ fault.message
  | waiting x => "waiting for a key into V" ++ upperHexDigit x.val
  | resumed key x => "key 0x" ++ hex 1 key.toNat ++ " resumes into V" ++ upperHexDigit x.val
  | stopped frames => "stopped after " ++ toString frames ++ " frames"
  | unmapped char => "can't map " ++ Text.quoted char ++ " to a COSMAC key"

def line (r : Record) : String :=
  r.level.paddedName ++ " " ++ r.source ++ "] " ++ r.message

/-- The line with the time since the start, in milliseconds, before it. -/
def stampedLine (r : Record) (elapsed : Nat) : String :=
  let seconds := String.ofList ((toString (elapsed / 1000)).toList.leftpad 5 ' ')
  let milliseconds := String.ofList ((toString (elapsed % 1000)).toList.leftpad 3 '0')
  "[" ++ seconds ++ "." ++ milliseconds ++ "s " ++ r.line

end Record

/-- The records that pass a threshold, in order. -/
def Threshold.select (threshold : Threshold) (records : List Record) : List Record :=
  records.filter fun r => threshold.admits r.level

end Chip8
