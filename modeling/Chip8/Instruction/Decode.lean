import Chip8.Instruction.Basic

/-!
# Decoding

The high digit of an opcode names its family.  Families `0`, `8`, `E` and `F` hold several
instructions and are told apart by their low digits; in families `5` and `9` the lowest digit is
free.  Decoding is total: what no family claims is `Instruction.unknown`.
-/

namespace Chip8

abbrev Opcode := UInt16

namespace Opcode

/-- The highest of the four digits. -/
def family (w : Opcode) : Nat :=
  w.toNat / 4096

def x (w : Opcode) : Register :=
  ⟨w.toNat / 256 % 16, Nat.mod_lt _ (by decide)⟩

def y (w : Opcode) : Register :=
  ⟨w.toNat / 16 % 16, Nat.mod_lt _ (by decide)⟩

def n (w : Opcode) : Fin 16 :=
  ⟨w.toNat % 16, Nat.mod_lt _ (by decide)⟩

def nn (w : Opcode) : UInt8 :=
  UInt8.ofNat (w.toNat % 256)

def nnn (w : Opcode) : UInt16 :=
  UInt16.ofNat (w.toNat % 4096)

end Opcode

def Operation.ofDigit? : Nat → Option Operation
  | 0x0 => some .copy
  | 0x1 => some .or
  | 0x2 => some .and
  | 0x3 => some .xor
  | 0x4 => some .add
  | 0x5 => some .sub
  | 0x6 => some .shiftRight
  | 0x7 => some .subFrom
  | 0xE => some .shiftLeft
  | _ => none

namespace Instruction

def ofSystem (w : Opcode) : Instruction :=
  match w.toNat with
  | 0x00E0 => clear
  | 0x00EE => ret
  | _ => unknown w

def ofArithmetic (w : Opcode) : Instruction :=
  match Operation.ofDigit? (w.toNat % 16) with
  | some operation => combine operation w.x w.y
  | none => unknown w

def ofKeys (w : Opcode) : Instruction :=
  match w.toNat % 256 with
  | 0x9E => skipIf (.keyDown w.x)
  | 0xA1 => skipIf (.keyUp w.x)
  | _ => unknown w

def ofDevices (w : Opcode) : Instruction :=
  match w.toNat % 256 with
  | 0x07 => loadDelay w.x
  | 0x0A => waitKey w.x
  | 0x15 => setDelay w.x
  | 0x18 => setSound w.x
  | 0x1E => addIndex w.x
  | 0x29 => loadGlyph w.x
  | 0x33 => storeDecimal w.x
  | 0x55 => storeRegisters w.x
  | 0x65 => loadRegisters w.x
  | _ => unknown w

def decode (w : Opcode) : Instruction :=
  match w.family with
  | 0x0 => ofSystem w
  | 0x1 => jump w.nnn
  | 0x2 => call w.nnn
  | 0x3 => skipIf (.equalsByte w.x w.nn)
  | 0x4 => skipIf (.differsFromByte w.x w.nn)
  | 0x5 => skipIf (.equals w.x w.y)
  | 0x6 => loadByte w.x w.nn
  | 0x7 => addByte w.x w.nn
  | 0x8 => ofArithmetic w
  | 0x9 => skipIf (.differs w.x w.y)
  | 0xA => loadIndex w.nnn
  | 0xB => jumpOffset w.nnn
  | 0xC => random w.x w.nn
  | 0xD => draw w.x w.y w.n
  | 0xE => ofKeys w
  | _ => ofDevices w

end Instruction

end Chip8
