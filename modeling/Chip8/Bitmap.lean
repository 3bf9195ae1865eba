import Chip8.Memory.Basic
import Chip8.Picture

/-!
# Bitmaps

A bitmap packs pixels eight to a byte, the leftmost in the highest bit, eight bytes to a row.  It
is read as one long run of bits: bit `p` is the pixel in column `p % 64` of row `p / 64`.  A sprite
is drawn at a position in that run, so one that hangs over the right edge goes on at the left of the
next row, and what lies past the last byte is dropped.
-/

namespace Chip8

structure Bitmap where
  bytes : Array UInt8
deriving DecidableEq

namespace Bitmap

/-- Dark past the last byte. -/
def bit (b : Bitmap) (p : Nat) : Bool :=
  match b.bytes[p / 8]? with
  | some byte => byte.toNat.testBit (7 - p % 8)
  | none => false

def position (x y : Nat) : Nat :=
  x + Picture.width * y

def pixel (b : Bitmap) (x y : Nat) : Bool :=
  decide (x < Picture.width ∧ y < Picture.height) && b.bit (position x y)

def picture (b : Bitmap) : Picture :=
  Picture.ofPixels b.pixel

def clear (b : Bitmap) : Bitmap :=
  ⟨b.bytes.map fun _ => 0⟩

/-- What drawing leaves: whether a lit pixel went dark, and the bitmap. -/
structure Drawn where
  collided : Bool
  bitmap : Bitmap

/-- Flips the pixels of one byte that are set in `mask`. -/
def flip (b : Bitmap) (i : Nat) (mask : UInt8) : Drawn :=
  match b.bytes[i]? with
  | some byte => ⟨byte &&& mask != 0, ⟨b.bytes.setIfInBounds i (byte ^^^ mask)⟩⟩
  | none => ⟨false, b⟩

/-- Flips eight pixels from position `p` on, which may be in the middle of a byte. -/
def drawRow (b : Bitmap) (p : Nat) (row : UInt8) : Drawn :=
  let shift := p % 8
  let left := b.flip (p / 8) (row >>> UInt8.ofNat shift)
  if shift = 0 then left
  else
    let right := left.bitmap.flip (p / 8 + 1) (row <<< UInt8.ofNat (8 - shift))
    ⟨left.collided || right.collided, right.bitmap⟩

/-- Draws rows one below the other, the first at position `p`. -/
def drawRows (b : Bitmap) (p : Nat) : List UInt8 → Drawn
  | [] => ⟨false, b⟩
  | row :: rows =>
    let first := b.drawRow p row
    let others := first.bitmap.drawRows (p + Picture.width) rows
    ⟨first.collided || others.collided, others.bitmap⟩

def draw (b : Bitmap) (x y : UInt8) (rows : List UInt8) : Drawn :=
  b.drawRows (position x.toNat y.toNat) rows

@[simp]
theorem size_flip (b : Bitmap) (i : Nat) (mask : UInt8) :
    (b.flip i mask).bitmap.bytes.size = b.bytes.size := by
  unfold flip
  split <;> simp

@[simp]
theorem size_drawRow (b : Bitmap) (p : Nat) (row : UInt8) :
    (b.drawRow p row).bitmap.bytes.size = b.bytes.size := by
  unfold drawRow
  dsimp only
  split <;> simp

@[simp]
theorem size_drawRows (b : Bitmap) (p : Nat) (rows : List UInt8) :
    (b.drawRows p rows).bitmap.bytes.size = b.bytes.size := by
  induction rows generalizing b p with
  | nil => rfl
  | cons row rows ih => simp [drawRows, ih]

@[simp]
theorem size_clear (b : Bitmap) : b.clear.bytes.size = b.bytes.size := by
  simp [clear]

theorem bit_of_size_le (b : Bitmap) {p : Nat} (h : 8 * b.bytes.size ≤ p) : b.bit p = false := by
  have hnone : b.bytes[p / 8]? = none := by
    rw [Array.getElem?_eq_none_iff]
    omega
  simp [bit, hnone]

theorem bit_flip (b : Bitmap) (i p : Nat) (mask : UInt8) :
    (b.flip i mask).bitmap.bit p =
      (b.bit p ^^
        (decide (p / 8 = i ∧ p < 8 * b.bytes.size) && mask.toNat.testBit (7 - p % 8))) := by
  by_cases hp : p / 8 = i
  · by_cases hi : i < b.bytes.size
    · have hlt : p < 8 * b.bytes.size := by omega
      subst hp
      simp [flip, bit, hi, hlt]
    · have hlt : ¬ p < 8 * b.bytes.size := by omega
      simp [flip, hi, hlt]
  · by_cases hi : i < b.bytes.size
    · simp [flip, bit, hi, hp, Ne.symm hp]
    · simp [flip, hi, hp]

theorem bit_clear (b : Bitmap) (p : Nat) : b.clear.bit p = false := by
  unfold bit clear
  cases h : b.bytes[p / 8]? <;> simp [h]

end Bitmap

namespace Memory

def display (m : Memory) : Bitmap :=
  ⟨Array.ofFn fun i : Fin displaySize => m.byte (displayBase + i.val)⟩

def setDisplay (m : Memory) (b : Bitmap) : Memory :=
  m.splice displayBase b.bytes.toList

@[simp]
theorem size_display (m : Memory) : m.display.bytes.size = displaySize := by
  simp [display]

theorem byte_setDisplay (m : Memory) (b : Bitmap) (a : Nat) :
    (m.setDisplay b).byte a =
      if displayBase ≤ a ∧ a < size then (b.bytes[a - displayBase]?).getD (m.byte a)
      else m.byte a := by
  simp [setDisplay, byte_splice]

theorem getElem?_display (m : Memory) (i : Nat) :
    m.display.bytes[i]? = if i < displaySize then some (m.byte (displayBase + i)) else none := by
  simp [display, Array.getElem?_ofFn]

theorem display_setDisplay (m : Memory) {b : Bitmap} (h : b.bytes.size = displaySize) :
    (m.setDisplay b).display = b := by
  cases b with | mk bytes =>
  simp only [display, Bitmap.mk.injEq]
  apply Array.ext
  · simp [h]
  · intro i hi hi'
    have hlt : i < displaySize := by simpa using hi
    have hin : displayBase ≤ displayBase + i ∧ displayBase + i < size :=
      ⟨Nat.le_add_right .., Nat.add_lt_of_lt_sub' hlt⟩
    simp only [Array.getElem_ofFn]
    rw [byte_setDisplay, if_pos hin, Nat.add_sub_cancel_left]
    simp [hi']

end Memory

end Chip8
