import Chip8.Text.Hex
import Chip8.Text.Labelled

/-!
# Faults

Everything that can go wrong while a program is loaded or run, by cause.  A fatal fault leaves the
machine unusable; the others refuse one request and change nothing.
-/

namespace Chip8

open Text (hex labelled wrapped)

inductive Fault where
  /-- An access of `len` bytes from `addr` runs past the end of memory. -/
  | addressOutOfRange (addr : UInt16) (len : Nat)
  | stackOverflow (pc : UInt16)
  | stackUnderflow (pc : UInt16)
  | unknownOpcode (opcode addr : UInt16)
  | programTooLarge (len max : Nat)
  | emptyProgram
  | invalidKey (key : UInt8)
  /-- The machine was stopped by an earlier fault. -/
  | halted
  /-- The program image could not be read. -/
  | unreadable (why : String)
deriving DecidableEq, Repr

namespace Fault

def isFatal : Fault → Bool
  | addressOutOfRange .. | stackOverflow _ | stackUnderflow _ | unknownOpcode .. | halted => true
  | programTooLarge .. | emptyProgram | invalidKey _ | unreadable _ => false

def message : Fault → String
  | addressOutOfRange addr len =>
      "address out of range: " ++ toString len ++ " byte(s) at 0x" ++ hex 4 addr.toNat
  | stackOverflow pc => "call stack overflow at pc 0x" ++ hex 4 pc.toNat
  | stackUnderflow pc => "return with empty call stack at pc 0x" ++ hex 4 pc.toNat
  | unknownOpcode opcode addr =>
      "unknown opcode 0x" ++ hex 4 opcode.toNat ++ " at 0x" ++ hex 4 addr.toNat
  | programTooLarge len max =>
      "program is " ++ toString len ++ " bytes, but only " ++ toString max ++
        " fit in the program area"
  | emptyProgram => "program image is empty"
  | invalidKey key => "key code 0x" ++ hex 2 key.toNat ++ " is not on the keypad"
  | halted => "interpreter halted after an earlier fault"
  | unreadable why => why

/-- The cause with its data, spelled for a listing. -/
def text : Fault → String
  | addressOutOfRange addr len => labelled "AddressOutOfRange" [("addr", addr.toNat), ("len", len)]
  | stackOverflow pc => labelled "StackOverflow" [("pc", pc.toNat)]
  | stackUnderflow pc => labelled "StackUnderflow" [("pc", pc.toNat)]
  | unknownOpcode opcode addr =>
      labelled "UnknownOpcode" [("opcode", opcode.toNat), ("addr", addr.toNat)]
  | programTooLarge len max => labelled "ProgramTooLarge" [("len", len), ("max", max)]
  | emptyProgram => "EmptyProgram"
  | invalidKey key => wrapped "InvalidKey" key.toNat
  | halted => "Halted"
  | unreadable why => "Io(" ++ why ++ ")"

end Fault

end Chip8
