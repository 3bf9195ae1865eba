import Chip8.Journal.Record
import Chip8.Machine.Request

/-!
# The account of a request

Which records a request leaves in the journal, read off the machine before it.  Keeping a journal
therefore cannot change what a machine does.
-/

namespace Chip8.Machine

/-- What is told of an instruction besides its decoding. -/
def accountOfInstruction (m : Machine) (instruction : Instruction) : List Record :=
  match m.execute instruction with
  | .error fault => if fault.isFatal then [.halting m.pc fault] else []
  | .ok _ =>
    match instruction with
    | .unknown opcode => [.skipped opcode m.pc]
    | .waitKey x => [.waiting x]
    | _ => []

def accountOfStep (m : Machine) : List Record :=
  match m.state with
  | .halted | .waiting _ => []
  | .running =>
    match m.fetch with
    | .error fault => if fault.isFatal then [.halting m.pc fault] else []
    | .ok opcode => .decoded m.pc opcode :: m.accountOfInstruction (Instruction.decode opcode)

def accountOfKey (m : Machine) (code : UInt8) : List Record :=
  match m.resolveKey code, m.state with
  | .ok _, .waiting x => [.resumed code x]
  | _, _ => []

def account (m : Machine) : Request → List Record
  | .step => m.accountOfStep
  | .resolveKey code => m.accountOfKey code
  | .tick | .keyDown _ | .keyUp _ | .takeRedraw => []

end Chip8.Machine
