import Chip8.Bitmap

/-!
# Sprites pixel by pixel

A row of a sprite is drawn as two bytes, shifted against each other, and a sprite as one row after
the other.  The law of drawing knows neither bytes nor an order: bit `p` is flipped exactly if the
sprite has a set pixel there, and a collision is a set pixel on a lit bit.  The rows lie 64 bits
apart and are 8 bits wide, so no bit is flipped twice.
-/

namespace Chip8.Bitmap

/-- A sprite with its corner in column `x` of row `y` has a set pixel at bit `p`. -/
def Covers (x y : Nat) (rows : List UInt8) (p : Nat) : Prop :=
  ∃ r row, rows[r]? = some row ∧
    ∃ c < 8, p = x + 64 * (y + r) + c ∧ row.toNat.testBit (7 - c) = true

/-- A row that starts at bit `p` has a set pixel at bit `q`. -/
def rowBit (p : Nat) (row : UInt8) (q : Nat) : Bool :=
  decide (p ≤ q ∧ q < p + 8) && row.toNat.testBit (7 - (q - p))

theorem covers_iff {x y : Nat} {rows : List UInt8} {p : Nat} :
    Covers x y rows p ↔
      position x y ≤ p ∧ (p - position x y) % 64 < 8 ∧
        ((rows[(p - position x y) / 64]?).getD 0).toNat.testBit
          (7 - (p - position x y) % 64) = true := by
  have hposition : position x y = x + 64 * y := rfl
  constructor
  · intro hcovers
    obtain ⟨r, row, hrow, c, hc, hp, hbit⟩ := hcovers
    have hdiv : (p - position x y) / 64 = r := by omega
    have hmod : (p - position x y) % 64 = c := by omega
    refine ⟨by omega, by omega, ?_⟩
    rw [hdiv, hmod, hrow]
    exact hbit
  · intro hset
    obtain ⟨hle, hc, hbit⟩ := hset
    cases hrow : rows[(p - position x y) / 64]? with
    | none => simp [hrow] at hbit
    | some row =>
      rw [hrow] at hbit
      exact ⟨_, row, hrow, _, hc, by omega, hbit⟩

instance (x y : Nat) (rows : List UInt8) (p : Nat) : Decidable (Covers x y rows p) :=
  decidable_of_iff _ covers_iff.symm

theorem not_covers_nil (x y p : Nat) : ¬ Covers x y [] p := by
  intro hcovers
  obtain ⟨r, row, hrow, -⟩ := hcovers
  simp at hrow

theorem covers_cons {x y : Nat} {row : UInt8} {rows : List UInt8} {p : Nat} :
    Covers x y (row :: rows) p ↔
      rowBit (position x y) row p = true ∨ Covers x (y + 1) rows p := by
  have hposition : position x y = x + 64 * y := rfl
  constructor
  · intro hcovers
    obtain ⟨r, row', hrow, c, hc, hp, hbit⟩ := hcovers
    cases r with
    | zero =>
      obtain rfl := Option.some.inj hrow
      left
      have hsub : p - position x y = c := by omega
      have hin : position x y ≤ p ∧ p < position x y + 8 := by omega
      simpa [rowBit, hsub, hin] using hbit
    | succ r => exact .inr ⟨r, row', hrow, c, hc, by omega, hbit⟩
  · intro hparts
    rcases hparts with hfirst | ⟨r, row', hrow, c, hc, hp, hbit⟩
    · simp only [rowBit, Bool.and_eq_true, decide_eq_true_eq] at hfirst
      exact ⟨0, row, rfl, p - position x y, by omega, by omega, hfirst.2⟩
    · exact ⟨r + 1, row', hrow, c, hc, by omega, hbit⟩

theorem rowBit_of_covers_below {x y : Nat} {row : UInt8} {rows : List UInt8} {p : Nat}
    (h : Covers x (y + 1) rows p) : rowBit (position x y) row p = false := by
  obtain ⟨r, row', hrow, c, hc, hp, hbit⟩ := h
  have hposition : position x y = x + 64 * y := rfl
  have hout : ¬ (position x y ≤ p ∧ p < position x y + 8) := by omega
  simp [rowBit, hout]

/-! ## One byte -/

theorem testBit_of_le (b : UInt8) {k : Nat} (h : 8 ≤ k) : b.toNat.testBit k = false :=
  Nat.testBit_lt_two_pow
    (Nat.lt_of_lt_of_le b.toNat_lt (Nat.pow_le_pow_right (by decide) h))

theorem and_ne_zero_iff {a b : UInt8} :
    a &&& b ≠ 0 ↔ ∃ k < 8, a.toNat.testBit k = true ∧ b.toNat.testBit k = true := by
  constructor
  · intro h
    have hne : (a &&& b).toNat ≠ 0 := fun hzero => h (UInt8.toNat_inj.mp hzero)
    obtain ⟨k, hk⟩ := Nat.exists_testBit_of_ne_zero hne
    rw [UInt8.toNat_and, Nat.testBit_and, Bool.and_eq_true] at hk
    refine ⟨k, Nat.lt_of_not_le fun hge => ?_, hk⟩
    rw [testBit_of_le a hge] at hk
    exact Bool.false_ne_true hk.1
  · rintro ⟨k, -, ha, hb⟩ hzero
    have hbit : (a &&& b).toNat.testBit k = true := by
      rw [UInt8.toNat_and, Nat.testBit_and, ha, hb]
      rfl
    rw [hzero] at hbit
    simp at hbit

theorem collided_flip_iff (b : Bitmap) (i : Nat) (mask : UInt8) :
    (b.flip i mask).collided = true ↔
      ∃ q < 8 * b.bytes.size, q / 8 = i ∧ mask.toNat.testBit (7 - q % 8) = true ∧
        b.bit q = true := by
  by_cases hi : i < b.bytes.size
  · have hcollided : (b.flip i mask).collided = (b.bytes[i] &&& mask != 0) := by
      simp [flip, hi]
    have hbit : ∀ q, q / 8 = i → b.bit q = b.bytes[i].toNat.testBit (7 - q % 8) := by
      rintro q rfl
      simp [bit, hi]
    rw [hcollided, bne_iff_ne, and_ne_zero_iff]
    constructor
    · intro hmasked
      obtain ⟨k, hk, hbyte, hmask⟩ := hmasked
      have hdiv : (8 * i + (7 - k)) / 8 = i := by omega
      have hmod : 7 - (8 * i + (7 - k)) % 8 = k := by omega
      refine ⟨8 * i + (7 - k), by omega, hdiv, ?_, ?_⟩
      · rw [hmod]
        exact hmask
      · rw [hbit _ hdiv, hmod]
        exact hbyte
    · intro hlit
      obtain ⟨q, -, hdiv, hmask, hlit⟩ := hlit
      rw [hbit q hdiv] at hlit
      exact ⟨7 - q % 8, by omega, hlit, hmask⟩
  · have hcollided : (b.flip i mask).collided = false := by
      simp [flip, hi]
    rw [hcollided]
    constructor
    · intro h
      cases h
    · intro hlit
      obtain ⟨q, hq, hdiv, -⟩ := hlit
      omega

/-! ## One row -/

/-- The part of a row that falls into the byte where it starts. -/
theorem testBit_left {p q : Nat} (row : UInt8) (h : q / 8 = p / 8) :
    (row >>> UInt8.ofNat (p % 8)).toNat.testBit (7 - q % 8) = rowBit p row q := by
  have hshift : (UInt8.ofNat (p % 8)).toNat % 8 = p % 8 := by
    simp only [UInt8.toNat_ofNat']
    omega
  rw [UInt8.toNat_shiftRight, hshift, Nat.testBit_shiftRight, rowBit]
  by_cases hle : p ≤ q
  · have hin : p ≤ q ∧ q < p + 8 := by omega
    have hindex : p % 8 + (7 - q % 8) = 7 - (q - p) := by omega
    simp [hin, hindex]
  · have hout : ¬ (p ≤ q ∧ q < p + 8) := by omega
    simp [hout, testBit_of_le row (k := p % 8 + (7 - q % 8)) (by omega)]

/-- The part of a row that falls into the next byte. -/
theorem testBit_right {p q : Nat} (row : UInt8) (hp : p % 8 ≠ 0) (h : q / 8 = p / 8 + 1) :
    (row <<< UInt8.ofNat (8 - p % 8)).toNat.testBit (7 - q % 8) = rowBit p row q := by
  have hshift : (UInt8.ofNat (8 - p % 8)).toNat % 8 = 8 - p % 8 := by
    simp only [UInt8.toNat_ofNat']
    omega
  rw [UInt8.toNat_shiftLeft, hshift, Nat.testBit_mod_two_pow, Nat.testBit_shiftLeft, rowBit]
  have hbyte : 7 - q % 8 < 8 := by omega
  by_cases hlt : q < p + 8
  · have hin : p ≤ q ∧ q < p + 8 := by omega
    have hreach : 8 - p % 8 ≤ 7 - q % 8 := by omega
    have hindex : 7 - q % 8 - (8 - p % 8) = 7 - (q - p) := by omega
    simp [hin, hbyte, hreach, hindex]
  · have hout : ¬ (p ≤ q ∧ q < p + 8) := by omega
    have hreach : ¬ 8 - p % 8 ≤ 7 - q % 8 := by omega
    simp [hout, hreach]

theorem rowBit_of_byte_ne {p q : Nat} (row : UInt8) (hleft : q / 8 ≠ p / 8)
    (hright : p % 8 = 0 ∨ q / 8 ≠ p / 8 + 1) : rowBit p row q = false := by
  have hout : ¬ (p ≤ q ∧ q < p + 8) := by omega
  simp [rowBit, hout]

theorem bit_drawRow (b : Bitmap) (p : Nat) (row : UInt8) {q : Nat} (hq : q < 8 * b.bytes.size) :
    (b.drawRow p row).bitmap.bit q = (b.bit q ^^ rowBit p row q) := by
  by_cases haligned : p % 8 = 0
  · have hrow : b.drawRow p row = b.flip (p / 8) (row >>> UInt8.ofNat (p % 8)) := by
      simp [drawRow, haligned]
    rw [hrow, bit_flip]
    by_cases hleft : q / 8 = p / 8
    · simp [hleft, hq, ← testBit_left row hleft]
    · simp [hleft, rowBit_of_byte_ne row hleft (.inl haligned)]
  · have hrow : (b.drawRow p row).bitmap =
        ((b.flip (p / 8) (row >>> UInt8.ofNat (p % 8))).bitmap.flip (p / 8 + 1)
          (row <<< UInt8.ofNat (8 - p % 8))).bitmap := by
      simp [drawRow, haligned]
    rw [hrow, bit_flip, bit_flip, size_flip]
    by_cases hleft : q / 8 = p / 8
    · simp [hleft, hq, ← testBit_left row hleft]
    · by_cases hright : q / 8 = p / 8 + 1
      · simp [hright, hq, ← testBit_right row haligned hright]
      · simp [hleft, hright, rowBit_of_byte_ne row hleft (.inr hright)]

theorem collided_drawRow_iff (b : Bitmap) (p : Nat) (row : UInt8) :
    (b.drawRow p row).collided = true ↔
      ∃ q < 8 * b.bytes.size, rowBit p row q = true ∧ b.bit q = true := by
  by_cases haligned : p % 8 = 0
  · have hrow : b.drawRow p row = b.flip (p / 8) (row >>> UInt8.ofNat (p % 8)) := by
      simp [drawRow, haligned]
    rw [hrow, collided_flip_iff]
    constructor
    · intro hflip
      obtain ⟨q, hq, hleft, hmask, hlit⟩ := hflip
      exact ⟨q, hq, testBit_left row hleft ▸ hmask, hlit⟩
    · intro hcovered
      obtain ⟨q, hq, hset, hlit⟩ := hcovered
      have hleft : q / 8 = p / 8 := by
        apply Decidable.byContradiction
        intro hne
        rw [rowBit_of_byte_ne row hne (.inl haligned)] at hset
        cases hset
      exact ⟨q, hq, hleft, (testBit_left row hleft).trans hset, hlit⟩
  · have hrow : (b.drawRow p row).collided =
        ((b.flip (p / 8) (row >>> UInt8.ofNat (p % 8))).collided ||
          ((b.flip (p / 8) (row >>> UInt8.ofNat (p % 8))).bitmap.flip (p / 8 + 1)
            (row <<< UInt8.ofNat (8 - p % 8))).collided) := by
      simp [drawRow, haligned]
    -- The first flip leaves the next byte alone.
    have hkept : ∀ q, q / 8 = p / 8 + 1 →
        (b.flip (p / 8) (row >>> UInt8.ofNat (p % 8))).bitmap.bit q = b.bit q := by
      intro q hright
      simp [bit_flip, hright]
    rw [hrow, Bool.or_eq_true, collided_flip_iff, collided_flip_iff, size_flip]
    constructor
    · intro hflips
      rcases hflips with ⟨q, hq, hleft, hmask, hlit⟩ | ⟨q, hq, hright, hmask, hlit⟩
      · exact ⟨q, hq, testBit_left row hleft ▸ hmask, hlit⟩
      · rw [hkept q hright] at hlit
        exact ⟨q, hq, testBit_right row haligned hright ▸ hmask, hlit⟩
    · intro hcovered
      obtain ⟨q, hq, hset, hlit⟩ := hcovered
      by_cases hleft : q / 8 = p / 8
      · exact .inl ⟨q, hq, hleft, (testBit_left row hleft).trans hset, hlit⟩
      · by_cases hright : q / 8 = p / 8 + 1
        · rw [← hkept q hright] at hlit
          exact .inr ⟨q, hq, hright, (testBit_right row haligned hright).trans hset, hlit⟩
        · rw [rowBit_of_byte_ne row hleft (.inr hright)] at hset
          cases hset

/-! ## All rows -/

theorem position_add_width (x y : Nat) : position x y + Picture.width = position x (y + 1) := by
  rw [position, position, Nat.mul_succ, Nat.add_assoc]

/-- Flips row by row are one flip by the covered bits: rows below do not reach the first. -/
theorem bit_drawRows (b : Bitmap) (x y : Nat) (rows : List UInt8) {p : Nat}
    (hp : p < 8 * b.bytes.size) :
    (b.drawRows (position x y) rows).bitmap.bit p = (b.bit p ^^ decide (Covers x y rows p)) := by
  induction rows generalizing b y with
  | nil => simp [drawRows, not_covers_nil]
  | cons row rows ih =>
    have hsize : p < 8 * (b.drawRow (position x y) row).bitmap.bytes.size := by
      rwa [size_drawRow]
    have hcovers : decide (Covers x y (row :: rows) p) =
        (rowBit (position x y) row p ^^ decide (Covers x (y + 1) rows p)) := by
      by_cases hlater : Covers x (y + 1) rows p
      · simp [covers_cons, hlater, rowBit_of_covers_below hlater]
      · simp [covers_cons, hlater]
    calc (b.drawRows (position x y) (row :: rows)).bitmap.bit p
        = ((b.drawRow (position x y) row).bitmap.drawRows (position x (y + 1)) rows).bitmap.bit p := by
          rw [drawRows, position_add_width]
      _ = ((b.drawRow (position x y) row).bitmap.bit p ^^ decide (Covers x (y + 1) rows p)) :=
          ih _ (y + 1) hsize
      _ = ((b.bit p ^^ rowBit (position x y) row p) ^^ decide (Covers x (y + 1) rows p)) := by
          rw [bit_drawRow b _ row hp]
      _ = (b.bit p ^^ decide (Covers x y (row :: rows) p)) := by
          rw [hcovers, Bool.xor_assoc]

theorem collided_drawRows_iff (b : Bitmap) (x y : Nat) (rows : List UInt8) :
    (b.drawRows (position x y) rows).collided = true ↔
      ∃ p < 8 * b.bytes.size, Covers x y rows p ∧ b.bit p = true := by
  induction rows generalizing b y with
  | nil =>
    constructor
    · intro h
      cases h
    · intro hlit
      obtain ⟨p, -, hcovers, -⟩ := hlit
      exact absurd hcovers (not_covers_nil x y p)
  | cons row rows ih =>
    have hrows : (b.drawRows (position x y) (row :: rows)).collided =
        ((b.drawRow (position x y) row).collided ||
          ((b.drawRow (position x y) row).bitmap.drawRows (position x (y + 1)) rows).collided) := by
      rw [drawRows, position_add_width]
    -- What a row below covers the first row has not touched.
    have hkept : ∀ p < 8 * b.bytes.size, Covers x (y + 1) rows p →
        (b.drawRow (position x y) row).bitmap.bit p = b.bit p := by
      intro p hp hlater
      rw [bit_drawRow b _ row hp, rowBit_of_covers_below hlater, Bool.xor_false]
    rw [hrows, Bool.or_eq_true, collided_drawRow_iff, ih, size_drawRow]
    constructor
    · intro hrow
      rcases hrow with ⟨p, hp, hset, hlit⟩ | ⟨p, hp, hlater, hlit⟩
      · exact ⟨p, hp, covers_cons.mpr (.inl hset), hlit⟩
      · rw [hkept p hp hlater] at hlit
        exact ⟨p, hp, covers_cons.mpr (.inr hlater), hlit⟩
    · intro hlit
      obtain ⟨p, hp, hcovers, hlit⟩ := hlit
      rcases covers_cons.mp hcovers with hset | hlater
      · exact .inl ⟨p, hp, hset, hlit⟩
      · exact .inr ⟨p, hp, hlater, (hkept p hp hlater).trans hlit⟩

/-- What drawing a sprite has to leave: every bit that it covers is flipped and no other, and a
collision is a covered bit that was lit. -/
structure Overlay (b : Bitmap) (x y : Nat) (rows : List UInt8) (drawn : Drawn) : Prop where
  size : drawn.bitmap.bytes.size = b.bytes.size
  bit : ∀ p < 8 * b.bytes.size, drawn.bitmap.bit p = (b.bit p ^^ decide (Covers x y rows p))
  collided : drawn.collided = true ↔ ∃ p < 8 * b.bytes.size, Covers x y rows p ∧ b.bit p = true

theorem overlay_draw (b : Bitmap) (x y : UInt8) (rows : List UInt8) :
    b.Overlay x.toNat y.toNat rows (b.draw x y rows) where
  size := b.size_drawRows _ rows
  bit _ hp := b.bit_drawRows x.toNat y.toNat rows hp
  collided := b.collided_drawRows_iff x.toNat y.toNat rows

/-! ## The same sprite again -/

/-- Bitmaps of one length are told apart by their bits. -/
theorem ext_bit {b b' : Bitmap} (hsize : b'.bytes.size = b.bytes.size)
    (h : ∀ p < 8 * b.bytes.size, b'.bit p = b.bit p) : b' = b := by
  cases b with | mk bytes => cases b' with | mk bytes' =>
  congr 1
  apply Array.ext hsize
  intro i hi' hi
  apply UInt8.toNat_inj.mp
  apply Nat.eq_of_testBit_eq
  intro k
  by_cases hk : k < 8
  · have hdiv : (8 * i + (7 - k)) / 8 = i := by omega
    have hmod : 7 - (8 * i + (7 - k)) % 8 = k := by omega
    have hbit := h (8 * i + (7 - k)) (by omega)
    simpa only [bit, hdiv, hmod, Array.getElem?_eq_getElem hi, Array.getElem?_eq_getElem hi']
      using hbit
  · have hbeyond : 8 ≤ k := Nat.le_of_not_lt hk
    rw [testBit_of_le _ hbeyond, testBit_of_le _ hbeyond]

namespace Overlay

variable {b : Bitmap} {x y : Nat} {rows : List UInt8} {first second : Drawn}

/-- The covered bits are flipped back. -/
theorem restored (hfirst : b.Overlay x y rows first)
    (hsecond : first.bitmap.Overlay x y rows second) : second.bitmap = b := by
  refine ext_bit (hsecond.size.trans hfirst.size) fun p hp => ?_
  calc second.bitmap.bit p
      = (first.bitmap.bit p ^^ decide (Covers x y rows p)) := hsecond.bit p (hfirst.size ▸ hp)
    _ = ((b.bit p ^^ decide (Covers x y rows p)) ^^ decide (Covers x y rows p)) := by
        rw [hfirst.bit p hp]
    _ = b.bit p := by rw [Bool.xor_assoc, Bool.xor_self, Bool.xor_false]

/-- What the sprite meets the second time is what it lit the first time. -/
theorem collided_again_iff (hfirst : b.Overlay x y rows first)
    (hsecond : first.bitmap.Overlay x y rows second) :
    second.collided = true ↔ ∃ p < 8 * b.bytes.size, Covers x y rows p ∧ b.bit p = false := by
  rw [hsecond.collided, hfirst.size]
  refine exists_congr fun p => and_congr_right fun hp => and_congr_right fun hcovers => ?_
  simp [hfirst.bit p hp, hcovers]

end Overlay

end Chip8.Bitmap
