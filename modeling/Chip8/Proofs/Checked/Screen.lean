import Chip8.Bitmap
import Chip8.Proofs.Checked.Basic

/-!
# The checked screen

Drawing and reading of pixels as they are computed: a sprite starts at a byte and a bit, every row
lies a fixed number of bytes further, and a row that starts within a byte goes on in the next.  A byte
past the end of the bitmap is not touched, so the only things that could go wrong are the sums and
the shifts.  They never do, wherever a sprite is drawn.
-/

namespace Chip8.Checked

/-- Draws row number `k` of a sprite whose first row starts at bit `bit` of byte `first`. -/
def drawRow (b : Bitmap) (first bit k : Nat) (row : UInt8) : Checked Bitmap.Drawn := do
  let i ← add 64 first ((← mul 64 k Picture.width) / 8)
  let left := b.flip i (row >>> UInt8.ofNat (← distance 8 bit))
  if bit = 0 then return left
  else
    let rest ← distance 8 (← sub 8 bit)
    let right := left.bitmap.flip (← add 64 i 1) (row <<< UInt8.ofNat rest)
    return ⟨left.collided || right.collided, right.bitmap⟩

/-- Draws rows, of which the next is number `k`. -/
def drawRows (b : Bitmap) (first bit k : Nat) : List UInt8 → Checked Bitmap.Drawn
  | [] => return ⟨false, b⟩
  | row :: rows => do
    let drawn ← drawRow b first bit k row
    let others ← drawRows drawn.bitmap first bit (k + 1) rows
    return ⟨drawn.collided || others.collided, others.bitmap⟩

def draw (b : Bitmap) (x y : UInt8) (rows : List UInt8) : Checked Bitmap.Drawn := do
  let start ← add 64 x.toNat (← mul 64 Picture.width y.toNat)
  drawRows b (start / 8) (start % 8) 0 rows

def pixel (b : Bitmap) (x y : Nat) : Checked Bool :=
  if x < Picture.width ∧ y < Picture.height then do
    let p ← add 64 x (← mul 64 y Picture.width)
    match b.bytes[p / 8]? with
    | none => return false
    | some byte => return byte.toNat.testBit (← distance 8 (← sub 7 (p % 8)))
  else return false

def picture (b : Bitmap) : Checked Picture :=
  return ⟨← (Vector.range 32).mapM fun y => (Vector.range 64).mapM fun x => pixel b x y⟩

/-! ## Drawing -/

section

variable (b : Bitmap) {p k : Nat} (x y : UInt8)

/-- Rows are whole bytes apart, so every row starts at the same bit. -/
theorem drawRow_eq (row : UInt8) (hp : p < 2 ^ 32) (hk : k < 2 ^ 32) :
    drawRow b (p / 8) (p % 8) k row = .ok (b.drawRow (p + Picture.width * k) row) := by
  have hoffset : k * 64 < 2 ^ 64 := by omega
  have hindex : p / 8 + k * 64 / 8 + 1 < 2 ^ 64 := by omega
  have hbyte : (p + 64 * k) / 8 = p / 8 + k * 64 / 8 := by omega
  have hbit : (p + 64 * k) % 8 = p % 8 := by omega
  have hlt : p % 8 < 8 := Nat.mod_lt p (by decide)
  rw [drawRow, mul_eq_ok hoffset, ok_bind, add_eq_ok (Nat.lt_of_succ_lt hindex), ok_bind,
    distance_eq_ok hlt, ok_bind, Bitmap.drawRow, hbyte, hbit]
  by_cases hzero : p % 8 = 0
  · rw [if_pos hzero, if_pos hzero, pure_eq_ok]
  · have hrest : 8 - p % 8 < 8 := by omega
    rw [if_neg hzero, if_neg hzero, sub_eq_ok (Nat.le_of_lt hlt), ok_bind, distance_eq_ok hrest,
      ok_bind, add_eq_ok hindex, ok_bind, pure_eq_ok]

theorem drawRows_eq (rows : List UInt8) (hp : p < 2 ^ 32) (hk : k + rows.length < 2 ^ 32) :
    drawRows b (p / 8) (p % 8) k rows = .ok (b.drawRows (p + Picture.width * k) rows) := by
  induction rows generalizing b k with
  | nil => rfl
  | cons row rows ih =>
    rw [List.length_cons] at hk
    have hnext : p + Picture.width * (k + 1) = p + Picture.width * k + Picture.width := by
      rw [Nat.mul_succ, Nat.add_assoc]
    rw [drawRows, drawRow_eq b row hp (by omega), ok_bind, ih _ (by omega), ok_bind, hnext]
    rfl

theorem draw_eq {rows : List UInt8} (h : rows.length < 16) :
    draw b x y rows = .ok (b.draw x y rows) := by
  have hx := x.toNat_lt
  have hy := y.toNat_lt
  have hrow : 64 * y.toNat < 2 ^ 64 := by omega
  have hstart : x.toNat + 64 * y.toNat < 2 ^ 32 := by omega
  rw [draw, mul_eq_ok hrow, ok_bind, add_eq_ok (Nat.lt_trans hstart (by decide)), ok_bind,
    drawRows_eq b rows hstart (by omega)]
  rfl

end

/-! ## Reading -/

theorem pixel_eq (b : Bitmap) (x y : Nat) : pixel b x y = .ok (b.pixel x y) := by
  rw [pixel, Bitmap.pixel]
  by_cases hin : x < Picture.width ∧ y < Picture.height
  · have hx : x < 64 := hin.1
    have hy : y < 32 := hin.2
    have hrow : y * 64 < 2 ^ 64 := by omega
    have hposition : x + y * 64 < 2 ^ 64 := by omega
    have hbit : 7 - Bitmap.position x y % 8 < 8 := by omega
    rw [if_pos hin, mul_eq_ok hrow, ok_bind, add_eq_ok hposition, ok_bind, Nat.mul_comm y,
      decide_eq_true hin, Bool.true_and, Bitmap.bit, ← Bitmap.position]
    cases b.bytes[Bitmap.position x y / 8]? with
    | none => rfl
    | some byte =>
      dsimp only
      rw [sub_eq_ok (by omega), ok_bind, distance_eq_ok hbit, ok_bind, pure_eq_ok]
  · rw [if_neg hin, decide_eq_false hin, Bool.false_and, pure_eq_ok]

theorem picture_eq (b : Bitmap) : picture b = .ok b.picture := by
  have hpixel : pixel b = fun x y => pure (b.pixel x y) := by
    funext x y
    exact pixel_eq b x y
  have hrows : (Vector.range 32).map (fun y => (Vector.range 64).map fun x => b.pixel x y) =
      b.picture.rows := by
    ext y hy x hx
    simp [Bitmap.picture, Picture.ofPixels]
  simp only [picture, hpixel, Vector.mapM_pure, pure_bind, hrows]
  rfl

end Chip8.Checked
