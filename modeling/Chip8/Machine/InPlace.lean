import Chip8.Machine.Execute

/-!
# Execution in place

How a machine carries an instruction out: by reads, checks and writes, one after the other, on the
one machine there is.  A fault ends the work where it is met, and what was written before it stays
written.  The program counter is moved last.
-/

namespace Chip8

/-- Work on a machine that gives a value or a fault, and a machine in both cases. -/
abbrev InPlace (α : Type) := EStateM Fault Machine α

namespace InPlace

def read (addr : UInt16) (len : Nat) : InPlace (List UInt8) := do
  MonadExcept.ofExcept ((← get).memory.read addr len)

def readWord (addr : UInt16) : InPlace UInt16 := do
  MonadExcept.ofExcept ((← get).memory.readWord addr)

def write (addr : UInt16) (data : List UInt8) : InPlace Unit := do
  MonadExcept.ofExcept (Memory.checkRange addr data.length)
  modify fun m => { m with memory := m.memory.splice addr.toNat data }

/-- A store of `len` bytes that reaches into the display asks for a redraw. -/
def noteStore (addr : UInt16) (len : Nat) : InPlace Unit :=
  modify fun m => { m with redraw := m.redraw || decide (Memory.displayBase < addr.toNat + len) }

/-- Writes `target` to the free slot, then moves the pointer.  `pc` is only reported. -/
def push (target pc : UInt16) : InPlace Unit := do
  let slot := (← get).stack.pointer
  if slot.toNat < Memory.stackBase then throw (.stackOverflow pc)
  write slot (Memory.wordBytes target)
  modify fun m => { m with stack := ⟨slot - 2⟩ }

/-- Reads the newest return address, then moves the pointer. -/
def pop (pc : UInt16) : InPlace UInt16 := do
  let slot := (← get).stack.pointer
  if CallStack.top ≤ slot.toNat then throw (.stackUnderflow pc)
  let target ← readWord (slot + 2)
  modify fun m => { m with stack := ⟨slot + 2⟩ }
  return target

def drawSprite (x y : UInt8) (rows : List UInt8) : InPlace Unit := do
  let drawn := (← get).memory.display.draw x y rows
  modify fun m => { m with memory := m.memory.setDisplay drawn.bitmap }
  modify fun m => m.putFlag drawn.collided
  modify fun m => { m with redraw := true }

/-- Does what the instruction does and tells where to go on.  `m` is the machine as the instruction
finds it. -/
def carryOut (m : Machine) : Instruction → InPlace UInt16
  | .clear => do
    modify fun m => { m with memory := m.memory.setDisplay m.memory.display.clear }
    modify fun m => { m with redraw := true }
    return m.pc + 2
  | .ret => pop m.pc
  | .jump nnn => return nnn
  | .call nnn => do
    push (m.pc + 2) m.pc
    return nnn
  | .skipIf condition => return if m.holds condition then m.pc + 2 + 2 else m.pc + 2
  | .loadByte x nn => do
    modify fun m => m.put x nn
    return m.pc + 2
  | .addByte x nn => do
    modify fun m => m.put x (m.get x + nn)
    return m.pc + 2
  | .combine operation x y => do
    modify fun m => m.combine operation x y
    return m.pc + 2
  | .loadIndex nnn => do
    modify fun m => m.putIndex nnn.toNat
    return m.pc + 2
  | .jumpOffset nnn => return nnn + (m.get .base).toUInt16
  | .random x nn => do
    modify fun m => { m with random := m.random.next }
    modify fun m' => m'.put x (m.random.byte &&& nn)
    return m.pc + 2
  | .draw x y rows => do
    let sprite ← read m.registers.index rows.val
    drawSprite (m.get x) (m.get y) sprite
    return m.pc + 2
  | .loadDelay x => do
    modify fun m => m.put x m.timers.delay
    return m.pc + 2
  | .waitKey x => do
    modify fun m => { m with state := .waiting x }
    return m.pc + 2
  | .setDelay x => do
    modify fun m => { m with timers := { m.timers with delay := m.get x } }
    return m.pc + 2
  | .setSound x => do
    modify fun m => { m with timers := { m.timers with sound := m.get x } }
    return m.pc + 2
  | .addIndex x => do
    modify fun m => m.putIndex (m.registers.index.toNat + (m.get x).toNat)
    return m.pc + 2
  | .loadGlyph x => do
    modify fun m => m.putIndex (Memory.glyphAddress (m.get x))
    return m.pc + 2
  | .storeDecimal x => do
    write m.registers.index (decimalDigits (m.get x))
    noteStore m.registers.index (decimalDigits (m.get x)).length
    return m.pc + 2
  | .storeRegisters x => do
    write m.registers.index (m.registers.upTo x)
    noteStore m.registers.index (m.registers.upTo x).length
    modify fun m' => m'.putIndex (m.registers.index.toNat + x.val + 1)
    return m.pc + 2
  | .loadRegisters x => do
    let data ← read m.registers.index (x.val + 1)
    modify fun m => { m with registers := m.registers.load data }
    modify fun m' => m'.putIndex (m.registers.index.toNat + x.val + 1)
    return m.pc + 2
  | .unknown opcode =>
    match m.config.unknown with
    | .ignore => do
      modify fun m => { m with skipped := m.skipped + 1 }
      return m.pc + 2
    | .strict => throw (.unknownOpcode opcode m.pc)

def execute (instruction : Instruction) : InPlace Unit := do
  let target ← carryOut (← get) instruction
  modify fun m => m.goto target

/-- Fetches and executes one instruction. -/
def cycle : InPlace Unit := do
  let opcode ← readWord (← get).pc
  execute (Instruction.decode opcode)

end InPlace

end Chip8
