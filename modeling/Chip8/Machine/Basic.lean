import Chip8.Bitmap
import Chip8.CallStack
import Chip8.Config
import Chip8.Keypad
import Chip8.Memory.Font
import Chip8.Random.Source
import Chip8.Registers
import Chip8.Timers

/-!
# The machine

The whole state of a machine as one value.  A machine keeps no time: whoever runs it asks for steps
and for ticks of the timers as often as it likes.
-/

namespace Chip8

inductive RunState where
  | running
  /-- Suspended until a key is chosen for the register. -/
  | waiting (x : Register)
  | halted
deriving DecidableEq, Repr

structure Machine where
  memory : Memory
  registers : Registers
  stack : CallStack
  timers : Timers
  keypad : Keypad
  state : RunState
  config : Config
  random : RandomSource
  /-- The picture may have changed since it was last asked for. -/
  redraw : Bool
  /-- How many unknown opcodes were passed over. -/
  skipped : Nat
deriving DecidableEq

namespace Machine

/-- A machine with a program loaded.  `chance` supplies the random bytes if no seed is given. -/
def start (program : List UInt8) (config : Config) (chance : RandomSource) :
    Except Fault Machine :=
  (Memory.blank.load program).map fun memory =>
    { memory
      registers := .initial
      stack := .empty
      timers := .stopped
      keypad := .released
      state := .running
      config
      random := (config.seed.map RandomSource.ofSeed).getD chance
      redraw := true
      skipped := 0 }

def pc (m : Machine) : UInt16 :=
  m.registers.pc

def get (m : Machine) (x : Register) : UInt8 :=
  m.registers.get x

def put (m : Machine) (x : Register) (b : UInt8) : Machine :=
  { m with registers := m.registers.set x b }

def putFlag (m : Machine) (on : Bool) : Machine :=
  { m with registers := m.registers.setFlag on }

def putIndex (m : Machine) (value : Nat) : Machine :=
  { m with registers := m.registers.setIndex value }

def goto (m : Machine) (target : UInt16) : Machine :=
  { m with registers := { m.registers with pc := target } }

/-- Goes on to the instruction after this one. -/
def next (m : Machine) : Machine :=
  m.goto (m.pc + 2)

def isHeld (m : Machine) (code : UInt8) : Bool :=
  m.keypad.isHeld code

def isWaiting (m : Machine) : Bool :=
  match m.state with
  | .waiting _ => true
  | .running | .halted => false

def toneOn (m : Machine) : Bool :=
  m.timers.toneOn

def picture (m : Machine) : Picture :=
  m.memory.display.picture

end Machine

end Chip8
