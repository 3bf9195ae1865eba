import Chip8.Instruction.Decode
import Chip8.Machine.Basic

/-!
# Execution

What each instruction does to a machine, told at once: the outcome is either the next machine or a
fault, and a fault carries no machine.  A machine at work writes one thing after the other and comes
to the same outcome.  A flag is written after the result, so it wins when the result goes to `VF`.
-/

namespace Chip8

/-- The result for operands `a` and `b`, where `s` is the operand of a shift, and the flag if the
operation has one. -/
def Operation.apply (operation : Operation) (a b s : UInt8) : UInt8 × Option Bool :=
  match operation with
  | .copy => (b, none)
  | .or => (a ||| b, none)
  | .and => (a &&& b, none)
  | .xor => (a ^^^ b, none)
  | .add => (a + b, some (decide (255 < a.toNat + b.toNat)))
  | .sub => (a - b, some (decide (b ≤ a)))
  | .shiftRight => (s >>> 1, some (s &&& 1 != 0))
  | .subFrom => (b - a, some (decide (a ≤ b)))
  | .shiftLeft => (s <<< 1, some (s &&& 0x80 != 0))

/-- The decimal digits of a byte, hundreds first. -/
def decimalDigits (b : UInt8) : List UInt8 :=
  [b / 100, b / 10 % 10, b % 10]

namespace Machine

def holds (m : Machine) : Condition → Bool
  | .equalsByte x nn => m.get x == nn
  | .differsFromByte x nn => m.get x != nn
  | .equals x y => m.get x == m.get y
  | .differs x y => m.get x != m.get y
  | .keyDown x => m.isHeld (m.get x)
  | .keyUp x => !m.isHeld (m.get x)

def shiftOperand (m : Machine) (x y : Register) : UInt8 :=
  match m.config.shift with
  | .inPlace => m.get x
  | .copySecond => m.get y

def combine (m : Machine) (operation : Operation) (x y : Register) : Machine :=
  let (result, flag) := operation.apply (m.get x) (m.get y) (m.shiftOperand x y)
  match flag with
  | none => m.put x result
  | some on => (m.put x result).putFlag on

/-- Stores at the index.  A store that reaches into the display asks for a redraw. -/
def store (m : Machine) (data : List UInt8) : Except Fault Machine :=
  (m.memory.write m.registers.index data).map fun memory =>
    { m with
      memory
      redraw := m.redraw || decide (Memory.displayBase < m.registers.index.toNat + data.length) }

def drawSprite (m : Machine) (x y : Register) (rows : List UInt8) : Machine :=
  let drawn := m.memory.display.draw (m.get x) (m.get y) rows
  { m with
    memory := m.memory.setDisplay drawn.bitmap
    registers := m.registers.setFlag drawn.collided
    redraw := true }

def passOver (m : Machine) (opcode : UInt16) : Except Fault Machine :=
  match m.config.unknown with
  | .ignore => .ok { m with skipped := m.skipped + 1 }.next
  | .strict => .error (.unknownOpcode opcode m.pc)

def execute (m : Machine) : Instruction → Except Fault Machine
  | .clear =>
      .ok { m with memory := m.memory.setDisplay m.memory.display.clear, redraw := true }.next
  | .ret => (m.stack.pop m.memory m.pc).map fun (target, stack) => { m with stack }.goto target
  | .jump nnn => .ok (m.goto nnn)
  | .call nnn =>
      (m.stack.push m.memory (m.pc + 2) m.pc).map fun (stack, memory) =>
        { m with stack, memory }.goto nnn
  | .skipIf condition => .ok (m.goto (m.pc + if m.holds condition then 4 else 2))
  | .loadByte x nn => .ok (m.put x nn).next
  | .addByte x nn => .ok (m.put x (m.get x + nn)).next
  | .combine operation x y => .ok (m.combine operation x y).next
  | .loadIndex nnn => .ok (m.putIndex nnn.toNat).next
  | .jumpOffset nnn => .ok (m.goto (nnn + (m.get .base).toUInt16))
  | .random x nn => .ok ({ m with random := m.random.next }.put x (m.random.byte &&& nn)).next
  | .draw x y rows =>
      (m.memory.read m.registers.index rows.val).map fun sprite => (m.drawSprite x y sprite).next
  | .loadDelay x => .ok (m.put x m.timers.delay).next
  | .waitKey x => .ok { m with state := .waiting x }.next
  | .setDelay x => .ok { m with timers := { m.timers with delay := m.get x } }.next
  | .setSound x => .ok { m with timers := { m.timers with sound := m.get x } }.next
  | .addIndex x => .ok (m.putIndex (m.registers.index.toNat + (m.get x).toNat)).next
  | .loadGlyph x => .ok (m.putIndex (Memory.glyphAddress (m.get x))).next
  | .storeDecimal x => (m.store (decimalDigits (m.get x))).map next
  | .storeRegisters x =>
      (m.store (m.registers.upTo x)).map fun m' =>
        (m'.putIndex (m.registers.index.toNat + x.val + 1)).next
  | .loadRegisters x =>
      (m.memory.read m.registers.index (x.val + 1)).map fun data =>
        ({ m with registers := m.registers.load data }.putIndex
          (m.registers.index.toNat + x.val + 1)).next
  | .unknown opcode => m.passOver opcode

end Machine

end Chip8
