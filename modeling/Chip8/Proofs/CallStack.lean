import Chip8.CallStack
import Chip8.Proofs.Memory.Ranges

/-!
# Sound call stacks

A pointer is sound when it addresses one of the 24 slots of the region or the word just below it, so
that it stands for a number of return addresses.  On a sound stack a push fails exactly when every
slot is taken and a pop exactly when none is, and neither can run past the end of memory.
-/

namespace Chip8

namespace CallStack

/-- The pointer is where a number of pushes from the empty stack leaves it. -/
structure Sound (s : CallStack) : Prop where
  pointer_add : s.pointer.toNat + 2 * s.depth = top
  depth_le : s.depth ≤ capacity

theorem sound_empty : empty.Sound :=
  ⟨rfl, by decide⟩

theorem depth_empty : empty.depth = 0 := rfl

namespace Sound

variable {s : CallStack}

theorem pointer_eq (h : s.Sound) : s.pointer.toNat = 0x1FE - 2 * s.depth := by
  have hadd : s.pointer.toNat + 2 * s.depth = 0x1FE := h.pointer_add
  omega

theorem toNat_pointer_add (h : s.Sound) : (s.pointer + 2).toNat = s.pointer.toNat + 2 := by
  have hpointer := h.pointer_eq
  have htwo : (2 : UInt16).toNat = 2 := rfl
  rw [UInt16.toNat_add, htwo]
  omega

theorem toNat_pointer_sub (h : s.Sound) : (s.pointer - 2).toNat = s.pointer.toNat - 2 := by
  have hpointer := h.pointer_eq
  have hle : s.depth ≤ 24 := h.depth_le
  have htwo : (2 : UInt16).toNat = 2 := rfl
  rw [UInt16.toNat_sub_of_le _ _ (UInt16.le_iff_toNat_le.mpr (by omega)), htwo]

theorem push_eq (h : s.Sound) (m : Memory) (target pc : UInt16) :
    s.push m target pc =
      if s.depth = capacity then .error (.stackOverflow pc)
      else .ok (⟨s.pointer - 2⟩, m.splice s.pointer.toNat (Memory.wordBytes target)) := by
  have hpointer := h.pointer_eq
  have hle : s.depth ≤ 24 := h.depth_le
  have hfull : s.pointer.toNat < Memory.stackBase ↔ s.depth = capacity := by
    change s.pointer.toNat < 0x1D0 ↔ s.depth = 24
    omega
  have hrange : s.pointer.toNat + 2 ≤ 4096 := by omega
  simp [push, hfull, Memory.writeWord, Memory.write, Memory.checkRange, Memory.wordBytes, hrange,
    Except.map]

theorem pop_eq (h : s.Sound) (m : Memory) (pc : UInt16) :
    s.pop m pc =
      if s.depth = 0 then .error (.stackUnderflow pc)
      else .ok (m.wordAt (s.pointer.toNat + 2), ⟨s.pointer + 2⟩) := by
  have hpointer := h.pointer_eq
  have hempty : top ≤ s.pointer.toNat ↔ s.depth = 0 := by
    change 0x1FE ≤ s.pointer.toNat ↔ s.depth = 0
    omega
  have hnext := h.toNat_pointer_add
  have hrange : s.pointer.toNat + 2 + 2 ≤ 4096 := by omega
  simp [pop, hempty, Memory.readWord, Memory.checkRange, hnext, hrange, Except.map]

/-- A slot taken. -/
theorem pushed (h : s.Sound) (hlt : s.depth < capacity) :
    Sound ⟨s.pointer - 2⟩ ∧ depth ⟨s.pointer - 2⟩ = s.depth + 1 := by
  have hpointer := h.pointer_eq
  have hlt : s.depth < 24 := hlt
  have hnext := h.toNat_pointer_sub
  have hdepth : depth ⟨s.pointer - 2⟩ = s.depth + 1 := by
    change (0x1FE - (s.pointer - 2).toNat) / 2 = s.depth + 1
    omega
  refine ⟨⟨?_, ?_⟩, hdepth⟩
  · change (s.pointer - 2).toNat + 2 * depth ⟨s.pointer - 2⟩ = 0x1FE
    omega
  · change depth ⟨s.pointer - 2⟩ ≤ 24
    omega

/-- A slot given back. -/
theorem popped (h : s.Sound) (hpos : 0 < s.depth) :
    Sound ⟨s.pointer + 2⟩ ∧ depth ⟨s.pointer + 2⟩ + 1 = s.depth := by
  have hpointer := h.pointer_eq
  have hle : s.depth ≤ 24 := h.depth_le
  have hnext := h.toNat_pointer_add
  have hdepth : depth ⟨s.pointer + 2⟩ + 1 = s.depth := by
    change (0x1FE - (s.pointer + 2).toNat) / 2 + 1 = s.depth
    omega
  refine ⟨⟨?_, ?_⟩, hdepth⟩
  · change (s.pointer + 2).toNat + 2 * depth ⟨s.pointer + 2⟩ = 0x1FE
    omega
  · change depth ⟨s.pointer + 2⟩ ≤ 24
    omega

end Sound

end CallStack

end Chip8
