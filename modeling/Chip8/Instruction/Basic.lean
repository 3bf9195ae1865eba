/-!
# Instructions

The instruction set by meaning.  The conditional skips differ only in their condition and the
register-to-register instructions only in their operation, so each group is one constructor.
`x` and `y` are register numbers, `nn` a byte and `nnn` an address.
-/

namespace Chip8

abbrev Register := Fin 16

/-- The register that an indexed jump adds. -/
def Register.base : Register := ⟨0, by decide⟩

/-- The register that receives flags. -/
def Register.flag : Register := ⟨15, by decide⟩

inductive Condition where
  | equalsByte (x : Register) (nn : UInt8)
  | differsFromByte (x : Register) (nn : UInt8)
  | equals (x y : Register)
  | differs (x y : Register)
  | keyDown (x : Register)
  | keyUp (x : Register)
deriving DecidableEq, Repr

/-- What is stored in the first register, given both.  `subFrom` subtracts the first from the
second. -/
inductive Operation where
  | copy | or | and | xor | add | sub | shiftRight | subFrom | shiftLeft
deriving DecidableEq, Repr

inductive Instruction where
  | clear
  | ret
  | jump (nnn : UInt16)
  | call (nnn : UInt16)
  | skipIf (condition : Condition)
  | loadByte (x : Register) (nn : UInt8)
  | addByte (x : Register) (nn : UInt8)
  | combine (operation : Operation) (x y : Register)
  | loadIndex (nnn : UInt16)
  | jumpOffset (nnn : UInt16)
  | random (x : Register) (nn : UInt8)
  | draw (x y : Register) (rows : Fin 16)
  | loadDelay (x : Register)
  | waitKey (x : Register)
  | setDelay (x : Register)
  | setSound (x : Register)
  | addIndex (x : Register)
  | loadGlyph (x : Register)
  | storeDecimal (x : Register)
  | storeRegisters (x : Register)
  | loadRegisters (x : Register)
  /-- An opcode outside the instruction set; what it does is for the machine to decide. -/
  | unknown (opcode : UInt16)
deriving DecidableEq, Repr

end Chip8
