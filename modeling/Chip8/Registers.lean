import Chip8.Instruction.Basic
import Chip8.Memory.Basic

/-!
# Registers

The registers a program sees: sixteen bytes `V0` to `VF`, the index and the program counter.  `VF`
also receives the flag of an arithmetic instruction and the collision of a draw.
-/

namespace Chip8

structure Registers where
  v : Vector UInt8 16
  index : UInt16
  pc : UInt16
deriving DecidableEq

namespace Registers

def initial : Registers :=
  ⟨Vector.replicate 16 0, 0, UInt16.ofNat Memory.programBase⟩

def get (r : Registers) (x : Register) : UInt8 :=
  r.v[x]

def set (r : Registers) (x : Register) (b : UInt8) : Registers :=
  { r with v := r.v.set x.val b x.isLt }

def setFlag (r : Registers) (on : Bool) : Registers :=
  r.set .flag (if on then 1 else 0)

/-- The index is a word: what does not fit is cut off. -/
def setIndex (r : Registers) (value : Nat) : Registers :=
  { r with index := UInt16.ofNat value }

/-- The first bytes of the register file, up to `x` and with it. -/
def upTo (r : Registers) (x : Register) : List UInt8 :=
  r.v.toList.take (x.val + 1)

/-- Replaces the first registers, one for each byte given. -/
def load (r : Registers) (bytes : List UInt8) : Registers :=
  { r with v := Vector.ofFn fun x => (bytes[x.val]?).getD (r.get x) }

theorem get_set (r : Registers) (x y : Register) (b : UInt8) :
    (r.set x b).get y = if x = y then b else r.get y := by
  simp [get, set, Vector.getElem_set, Fin.ext_iff]

theorem get_load (r : Registers) (bytes : List UInt8) (x : Register) :
    (r.load bytes).get x = (bytes[x.val]?).getD (r.get x) := by
  simp [get, load]

theorem ext_get {r s : Registers} (hv : ∀ x, r.get x = s.get x) (hi : r.index = s.index)
    (hp : r.pc = s.pc) : r = s := by
  cases r with | mk v i p => cases s with | mk w j q =>
  simp only at hi hp
  subst hi hp
  congr 1
  apply Vector.ext
  intro k hk
  simpa [get] using hv ⟨k, hk⟩

end Registers

end Chip8
