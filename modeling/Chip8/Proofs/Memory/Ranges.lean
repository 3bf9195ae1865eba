import Chip8.Bitmap

/-!
# Ranges of memory

Memory is told by its bytes, and so is a range that is read or replaced: a range that was replaced
reads as what it was replaced by, and replacing a range by what it holds changes nothing.  A word is
a range of two bytes, and the display is the range at the end.
-/

namespace Chip8.Memory

theorem byte_splice_of_outside (m : Memory) {a i : Nat} {bs : List UInt8}
    (h : a ≤ i → ¬ i < a + bs.length) : (m.splice a bs).byte i = m.byte i := by
  by_cases hi : a ≤ i
  · exact m.byte_splice_of_le bs (Nat.le_of_not_lt (h hi))
  · exact m.byte_splice_of_lt bs (Nat.lt_of_not_le hi)

theorem slice_congr {m m' : Memory} {a len : Nat}
    (h : ∀ i, a ≤ i → i < a + len → m'.byte i = m.byte i) : m'.slice a len = m.slice a len := by
  refine List.map_congr_left fun k hk => ?_
  have hlt : k < len := List.mem_range.mp hk
  exact h _ (Nat.le_add_right ..) (Nat.add_lt_add_left hlt a)

theorem slice_splice (m : Memory) (a : Nat) (bytes : List UInt8) (hfits : a + bytes.length ≤ size) :
    (m.splice a bytes).slice a bytes.length = bytes := by
  apply List.ext_getElem?
  intro k
  rw [getElem?_slice]
  by_cases hk : k < bytes.length
  · have hrange : a ≤ a + k ∧ a + k < size := by omega
    rw [if_pos hk, byte_splice, if_pos hrange, Nat.add_sub_cancel_left,
      List.getElem?_eq_getElem hk, Option.getD_some]
  · rw [if_neg hk, List.getElem?_eq_none (Nat.le_of_not_lt hk)]

theorem splice_slice (m : Memory) (a len : Nat) : m.splice a (m.slice a len) = m := by
  apply ext_byte
  intro i hi
  by_cases hrange : a ≤ i ∧ i < a + len
  · have hk : i - a < len := by omega
    have hsum : a + (i - a) = i := Nat.add_sub_cancel' hrange.1
    rw [byte_splice, if_pos ⟨hrange.1, hi⟩, getElem?_slice, if_pos hk, Option.getD_some, hsum]
  · apply byte_splice_of_outside
    rw [length_slice]
    exact not_and.mp hrange

theorem slice_three_eq_iff {m : Memory} {a : Nat} {b c d : UInt8} :
    m.slice a 3 = [b, c, d] ↔ m.byte a = b ∧ m.byte (a + 1) = c ∧ m.byte (a + 2) = d := by
  simp [slice, List.range_succ]

theorem load_eq (m : Memory) (program : List UInt8) :
    m.load program =
      if program = [] then .error .emptyProgram
      else if 3328 < program.length then .error (.programTooLarge program.length 3328)
      else .ok (m.splice 0x200 program) := by
  simp only [load, List.isEmpty_iff]
  rfl

/-! ## Words -/

theorem wordAt_congr {m m' : Memory} {a : Nat} (h₀ : m'.byte a = m.byte a)
    (h₁ : m'.byte (a + 1) = m.byte (a + 1)) : m'.wordAt a = m.wordAt a := by
  rw [wordAt, wordAt, h₀, h₁]

theorem wordAt_splice_of_le (m : Memory) {a i : Nat} (bs : List UInt8) (h : a + bs.length ≤ i) :
    (m.splice a bs).wordAt i = m.wordAt i :=
  wordAt_congr (m.byte_splice_of_le bs h) (m.byte_splice_of_le bs (Nat.le_succ_of_le h))

theorem toNat_highByte (w : UInt16) : (w >>> 8).toUInt8.toNat = w.toNat / 256 := by
  have hw : w.toNat < 65536 := w.toNat_lt
  simp only [UInt16.toNat_toUInt8, UInt16.toNat_shiftRight, UInt16.reduceToNat,
    Nat.shiftRight_eq_div_pow, Nat.reduceMod, Nat.reducePow]
  omega

theorem toNat_lowByte (w : UInt16) : w.toUInt8.toNat = w.toNat % 256 :=
  UInt16.toNat_toUInt8 w

/-- The bytes of a word, high byte first, make up the word. -/
theorem toUInt16_wordBytes (w : UInt16) :
    (w >>> 8).toUInt8.toUInt16 * 256 + w.toUInt8.toUInt16 = w := by
  apply UInt16.toNat_inj.mp
  have hw : w.toNat < 65536 := w.toNat_lt
  simp only [UInt16.toNat_add, UInt16.toNat_mul, UInt8.toNat_toUInt16, UInt16.reduceToNat]
  rw [toNat_highByte, toNat_lowByte]
  omega

theorem wordAt_splice_wordBytes (m : Memory) {a : Nat} (h : a + 2 ≤ size) (w : UInt16) :
    (m.splice a (wordBytes w)).wordAt a = w := by
  have hhigh : (m.splice a (wordBytes w)).byte a = (w >>> 8).toUInt8 := by
    rw [byte_splice, if_pos (by omega)]
    simp [wordBytes]
  have hlow : (m.splice a (wordBytes w)).byte (a + 1) = w.toUInt8 := by
    rw [byte_splice, if_pos (by omega)]
    simp [wordBytes]
  rw [wordAt, hhigh, hlow, toUInt16_wordBytes]

theorem toNat_wordAt (m : Memory) (a : Nat) :
    (m.wordAt a).toNat = 256 * (m.byte a).toNat + (m.byte (a + 1)).toNat := by
  have hhigh := (m.byte a).toNat_lt
  have hlow := (m.byte (a + 1)).toNat_lt
  simp only [wordAt, UInt16.toNat_add, UInt16.toNat_mul, UInt8.toNat_toUInt16,
    UInt16.reduceToNat]
  omega

theorem wordBytes_wordAt (m : Memory) (a : Nat) : wordBytes (m.wordAt a) = m.slice a 2 := by
  have hhigh := (m.byte a).toNat_lt
  have hlow := (m.byte (a + 1)).toNat_lt
  have hfirst : (m.wordAt a >>> 8).toUInt8 = m.byte a := by
    apply UInt8.toNat_inj.mp
    rw [toNat_highByte, toNat_wordAt]
    omega
  have hsecond : (m.wordAt a).toUInt8 = m.byte (a + 1) := by
    apply UInt8.toNat_inj.mp
    rw [toNat_lowByte, toNat_wordAt]
    omega
  rw [wordBytes, hfirst, hsecond]
  rfl

/-- Storing the word that is there changes nothing. -/
theorem splice_wordAt (m : Memory) (a : Nat) : m.splice a (wordBytes (m.wordAt a)) = m := by
  rw [wordBytes_wordAt, splice_slice]

/-! ## The display -/

theorem display_congr {m m' : Memory}
    (h : ∀ a, displayBase ≤ a → a < size → m'.byte a = m.byte a) : m'.display = m.display := by
  simp only [display, Bitmap.mk.injEq]
  congr 1
  funext i
  exact h _ (Nat.le_add_right ..) (Nat.add_lt_of_lt_sub' i.isLt)

/-- Memory is what lies below the display, and the display. -/
theorem ext_display {m m' : Memory} (hbelow : ∀ a < displayBase, m'.byte a = m.byte a)
    (hdisplay : m'.display = m.display) : m' = m := by
  apply ext_byte
  intro a ha
  by_cases hlt : a < displayBase
  · exact hbelow a hlt
  · have hle : displayBase ≤ a := Nat.le_of_not_lt hlt
    have hin : a - displayBase < displaySize := Nat.sub_lt_sub_right hle ha
    have hbyte := m'.getElem?_display (a - displayBase)
    rw [hdisplay, m.getElem?_display, if_pos hin, if_pos hin, Nat.add_sub_cancel' hle] at hbyte
    exact (Option.some.inj hbyte).symm

end Chip8.Memory
