import Chip8.Memory.Basic

/-!
# The call stack

Return addresses are kept in memory, in the region below the program.  The pointer addresses the
next free slot and moves down by one word on every push, so the oldest address is in the highest
slot.  Only the pointer is kept here.
-/

namespace Chip8

structure CallStack where
  pointer : UInt16
deriving DecidableEq, Repr

namespace CallStack

/-- The slot of the oldest return address. -/
abbrev top : Nat := Memory.stackEnd - 2

abbrev capacity : Nat := (Memory.stackEnd - Memory.stackBase) / 2

def empty : CallStack :=
  ⟨UInt16.ofNat top⟩

def depth (s : CallStack) : Nat :=
  (top - s.pointer.toNat) / 2

/-- Stores `target` in the free slot.  `pc` is only reported. -/
def push (s : CallStack) (m : Memory) (target pc : UInt16) : Except Fault (CallStack × Memory) :=
  if s.pointer.toNat < Memory.stackBase then .error (.stackOverflow pc)
  else (m.writeWord s.pointer target).map fun m' => (⟨s.pointer - 2⟩, m')

/-- The newest return address, and the stack without it. -/
def pop (s : CallStack) (m : Memory) (pc : UInt16) : Except Fault (UInt16 × CallStack) :=
  if top ≤ s.pointer.toNat then .error (.stackUnderflow pc)
  else (m.readWord (s.pointer + 2)).map fun target => (target, ⟨s.pointer + 2⟩)

end CallStack

end Chip8
