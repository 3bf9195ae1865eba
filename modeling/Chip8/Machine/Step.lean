import Chip8.Machine.InPlace

/-!
# Steps

One step of a running machine fetches the word at the program counter, decodes it and executes it.
A waiting machine takes a step by doing nothing, and a halted one refuses.  A fatal fault halts the
machine as the fault left it.
-/

namespace Chip8.Machine

def fetch (m : Machine) : Except Fault Opcode :=
  m.memory.readWord m.pc

def halt (m : Machine) (fault : Fault) : Machine :=
  if fault.isFatal then { m with state := .halted } else m

def step (m : Machine) : Except Fault Unit × Machine :=
  match m.state with
  | .halted => (.error .halted, m)
  | .waiting _ => (.ok (), m)
  | .running =>
    match InPlace.cycle.run m with
    | .ok () m' => (.ok (), m')
    | .error fault m' => (.error fault, m'.halt fault)

/-- One tick of the timers' own clock. -/
def tick (m : Machine) : Machine :=
  { m with timers := m.timers.tick }

def keyDown (m : Machine) (code : UInt8) : Except Fault Machine :=
  (m.keypad.press code).map fun keypad => { m with keypad }

def keyUp (m : Machine) (code : UInt8) : Except Fault Machine :=
  (m.keypad.release code).map fun keypad => { m with keypad }

/-- Ends a wait with a key; tells whether there was one to end. -/
def resolveKey (m : Machine) (code : UInt8) : Except Fault (Bool × Machine) :=
  (Key.ofCode code).map fun _ =>
    match m.state with
    | .waiting x => (true, { m.put x code with state := .running })
    | .running | .halted => (false, m)

/-- Whether a redraw is asked for; the request is then withdrawn. -/
def takeRedraw (m : Machine) : Bool × Machine :=
  (m.redraw, { m with redraw := false })

theorem step_of_halted {m : Machine} (h : m.state = .halted) : m.step = (.error .halted, m) := by
  simp [step, h]

theorem step_of_waiting {m : Machine} {x : Register} (h : m.state = .waiting x) :
    m.step = (.ok (), m) := by
  simp [step, h]

end Chip8.Machine
