import Chip8.Instruction.Basic
import Chip8.Text.Labelled

/-!
# Instructions spelled out

The listing form of an instruction, used when a run is traced: its name and its operands.
-/

namespace Chip8

open Text (labelled wrapped)

def Condition.text : Condition → String
  | .equalsByte x nn => labelled "SkipEqImm" [("x", x.val), ("nn", nn.toNat)]
  | .differsFromByte x nn => labelled "SkipNeImm" [("x", x.val), ("nn", nn.toNat)]
  | .equals x y => labelled "SkipEqReg" [("x", x.val), ("y", y.val)]
  | .differs x y => labelled "SkipNeReg" [("x", x.val), ("y", y.val)]
  | .keyDown x => labelled "SkipKeyDown" [("x", x.val)]
  | .keyUp x => labelled "SkipKeyUp" [("x", x.val)]

def Operation.name : Operation → String
  | .copy => "Move"
  | .or => "Or"
  | .and => "And"
  | .xor => "Xor"
  | .add => "Add"
  | .sub => "Sub"
  | .shiftRight => "ShiftRight"
  | .subFrom => "SubReversed"
  | .shiftLeft => "ShiftLeft"

def Instruction.text : Instruction → String
  | .clear => "ClearScreen"
  | .ret => "Return"
  | .jump nnn => labelled "Jump" [("nnn", nnn.toNat)]
  | .call nnn => labelled "Call" [("nnn", nnn.toNat)]
  | .skipIf condition => condition.text
  | .loadByte x nn => labelled "LoadImm" [("x", x.val), ("nn", nn.toNat)]
  | .addByte x nn => labelled "AddImm" [("x", x.val), ("nn", nn.toNat)]
  | .combine operation x y => labelled operation.name [("x", x.val), ("y", y.val)]
  | .loadIndex nnn => labelled "LoadIndex" [("nnn", nnn.toNat)]
  | .jumpOffset nnn => labelled "JumpOffset" [("nnn", nnn.toNat)]
  | .random x nn => labelled "Random" [("x", x.val), ("nn", nn.toNat)]
  | .draw x y rows => labelled "Draw" [("x", x.val), ("y", y.val), ("n", rows.val)]
  | .loadDelay x => labelled "LoadDelay" [("x", x.val)]
  | .waitKey x => labelled "WaitKey" [("x", x.val)]
  | .setDelay x => labelled "SetDelay" [("x", x.val)]
  | .setSound x => labelled "SetSound" [("x", x.val)]
  | .addIndex x => labelled "AddIndex" [("x", x.val)]
  | .loadGlyph x => labelled "LoadGlyph" [("x", x.val)]
  | .storeDecimal x => labelled "StoreBcd" [("x", x.val)]
  | .storeRegisters x => labelled "StoreRegs" [("x", x.val)]
  | .loadRegisters x => labelled "LoadRegs" [("x", x.val)]
  | .unknown opcode => wrapped "Unknown" opcode.toNat

end Chip8
