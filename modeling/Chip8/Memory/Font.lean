import Chip8.Memory.Basic

/-!
# The font

Sixteen glyphs, one for each hexadecimal digit, five rows each, at the bottom of memory.  The
glyph of a byte above fifteen would lie past the font; its address is not corrected.
-/

namespace Chip8.Memory

def glyphRows : Nat := 5

def font : List UInt8 :=
  [0xF0, 0x90, 0x90, 0x90, 0xF0,
   0x20, 0x60, 0x20, 0x20, 0x70,
   0xF0, 0x10, 0xF0, 0x80, 0xF0,
   0xF0, 0x10, 0xF0, 0x10, 0xF0,
   0x90, 0x90, 0xF0, 0x10, 0x10,
   0xF0, 0x80, 0xF0, 0x10, 0xF0,
   0xF0, 0x80, 0xF0, 0x90, 0xF0,
   0xF0, 0x10, 0x20, 0x40, 0x40,
   0xF0, 0x90, 0xF0, 0x90, 0xF0,
   0xF0, 0x90, 0xF0, 0x10, 0xF0,
   0xF0, 0x90, 0xF0, 0x90, 0x90,
   0xE0, 0x90, 0xE0, 0x90, 0xE0,
   0xF0, 0x80, 0x80, 0x80, 0xF0,
   0xE0, 0x90, 0x90, 0x90, 0xE0,
   0xF0, 0x80, 0xF0, 0x80, 0xF0,
   0xF0, 0x80, 0xF0, 0x80, 0x80]

/-- Memory before a program is loaded. -/
def blank : Memory :=
  zero.splice 0 font

def glyphAddress (digit : UInt8) : Nat :=
  glyphRows * digit.toNat

theorem byte_blank (a : Nat) : blank.byte a = (font[a]?).getD 0 := by
  rw [blank, byte_splice, byte_zero]
  by_cases ha : a < size
  · rw [if_pos ⟨Nat.zero_le a, ha⟩, Nat.sub_zero]
  · have hpast : font.length ≤ a := Nat.le_trans (by decide) (Nat.le_of_not_lt ha)
    rw [if_neg (fun h => ha h.2), List.getElem?_eq_none hpast, Option.getD_none]

end Chip8.Memory
