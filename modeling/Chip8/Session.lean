import Chip8.Image
import Chip8.Journal.Account

/-!
# Sessions

A machine together with the journal of its run.
-/

namespace Chip8

structure Session where
  machine : Machine
  journal : Array Record

namespace Session

def start (program : List UInt8) (config : Config) (chance : RandomSource) :
    Except Fault Session :=
  (Machine.start program config chance).map fun machine => ⟨machine, #[.loaded program.length]⟩

/-- Starts from an image that is still to be read. -/
def ofReads (reads : List Read) (config : Config) (chance : RandomSource) :
    Except Fault Session := do
  start (← Image.ofReads reads) config chance

def note (s : Session) (r : Record) : Session :=
  { s with journal := s.journal.push r }

def perform (s : Session) (request : Request) : Reply × Session :=
  let (reply, machine) := s.machine.perform request
  (reply, ⟨machine, s.journal ++ s.machine.account request⟩)

/-- The lines that a reader at a threshold sees. -/
def lines (s : Session) (threshold : Threshold) : List String :=
  (threshold.select s.journal.toList).map Record.line

end Session

end Chip8
