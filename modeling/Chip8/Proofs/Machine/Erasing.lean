import Chip8.Proofs.Instruction.Catalogue
import Chip8.Proofs.Machine.Drawing

/-!
# Drawing and erasing

A sprite is erased by drawing it once more at the same place.  For this the second draw has to find
what the first one found: the rows, so they may not lie in the display, and the coordinates, so
neither of them may be the flag.  The first draw tells by the flag whether the sprite met a lit
pixel and the second whether it had met a dark one, so that a sprite drawn on dark ground sets the
flag when it is erased.  What falls past the end of the display counts for neither.
-/

namespace Chip8

namespace Machine

open Instruction (decode)

variable {m m₁ m₂ : Machine} {x y : Register} {rows : List UInt8} {first second : Bitmap.Drawn}

/-- Drawing the rows at the place that two registers name takes the first machine to the second. -/
structure Draws (m : Machine) (x y : Register) (rows : List UInt8) (drawn : Bitmap.Drawn)
    (m' : Machine) : Prop where
  overlay : m.memory.display.Overlay (m.get x).toNat (m.get y).toNat rows drawn
  display : m'.memory.display = drawn.bitmap
  below : ∀ a < Memory.displayBase, m'.memory.byte a = m.memory.byte a
  flag : m'.get .flag = if drawn.collided then 1 else 0
  other : ∀ z, z ≠ .flag → m'.get z = m.get z
  index : m'.registers.index = m.registers.index
  state : m'.state = m.state

theorem draws_next (m : Machine) (x y : Register) (rows : List UInt8) :
    m.Draws x y rows
      ⟨(m.memory.display.draw (m.get x) (m.get y) rows).collided,
        (m.drawSprite x y rows).next.memory.display⟩ (m.drawSprite x y rows).next where
  overlay := m.overlay_drawSprite x y rows
  display := rfl
  below _ ha := m.byte_drawSprite x y rows ha
  flag := (m.get_drawSprite ..).trans (if_pos rfl)
  other _ hz := (m.get_drawSprite ..).trans (if_neg (Ne.symm hz))
  index := rfl
  state := rfl

theorem draws_of_fits {w : Opcode} (hdraw : w.Fits "DXYN")
    (hfits : m.registers.index.toNat + w.n.val ≤ Memory.size) :
    ∃ drawn m', m.execute (decode w) = .ok m' ∧
      m.Draws w.x w.y (m.memory.slice m.registers.index.toNat w.n.val) drawn m' := by
  rw [Instruction.decode_eq_draw_iff.mpr ⟨hdraw, rfl, rfl, rfl⟩]
  exact ⟨_, _, m.execute_draw w.x w.y hfits, m.draws_next w.x w.y _⟩

namespace Draws

theorem flag_eq_one_iff (h : m.Draws x y rows first m₁) :
    m₁.get .flag = 1 ↔ first.collided = true := by
  rw [h.flag]
  cases first.collided <;> decide

/-- A second draw at the same place overlays what the first one left. -/
theorem overlay_again (hfirst : m.Draws x y rows first m₁) (hx : x ≠ .flag) (hy : y ≠ .flag)
    (hsecond : m₁.Draws x y rows second m₂) :
    first.bitmap.Overlay (m.get x).toNat (m.get y).toNat rows second := by
  rw [← hfirst.display, ← hfirst.other x hx, ← hfirst.other y hy]
  exact hsecond.overlay

theorem memory_again (hfirst : m.Draws x y rows first m₁) (hx : x ≠ .flag) (hy : y ≠ .flag)
    (hsecond : m₁.Draws x y rows second m₂) : m₂.memory = m.memory := by
  apply Memory.ext_display
  · intro a ha
    rw [hsecond.below a ha, hfirst.below a ha]
  · rw [hsecond.display, hfirst.overlay.restored (hfirst.overlay_again hx hy hsecond)]

end Draws

/-- A sprite that lies outside the display, drawn twice in a row at a place that is not given by the
flag, leaves memory, the index and all registers but the flag as they were.  The flag tells after the
first draw whether the sprite met a lit pixel of the display, and after the second whether it had met
a dark one. -/
theorem drawn_twice_erased (m : Machine) (w : Opcode) (hdraw : w.Fits "DXYN")
    (hx : w.x ≠ .flag) (hy : w.y ≠ .flag)
    (hfits : m.registers.index.toNat + w.n.val ≤ Memory.size)
    (hapart : ∀ a, m.registers.index.toNat ≤ a → a < m.registers.index.toNat + w.n.val →
      ¬ (Memory.displayBase ≤ a ∧ a < Memory.size)) :
    let sprite := m.memory.slice m.registers.index.toNat w.n.val
    let covers := Bitmap.Covers (m.get w.x).toNat (m.get w.y).toNat sprite
    ∃ m₁ m₂, (InPlace.execute (decode w)).run m = .ok () m₁ ∧
      (InPlace.execute (decode w)).run m₁ = .ok () m₂ ∧
      m₂.memory = m.memory ∧ m₂.registers.index = m.registers.index ∧
      (∀ z, z ≠ .flag → m₂.get z = m.get z) ∧
      (m₁.get .flag = 1 ↔ ∃ p < 2048, covers p ∧ m.memory.display.bit p = true) ∧
      (m₂.get .flag = 1 ↔ ∃ p < 2048, covers p ∧ m.memory.display.bit p = false) ∧
      (m₁.get .flag = 0 → (∃ p < 2048, covers p) → m₂.get .flag = 1) ∧
      (m.state = .running → m.fetch = .ok w → m.step = (.ok (), m₁)) ∧
      (m.state = .running → m₁.fetch = .ok w → m₁.step = (.ok (), m₂)) := by
  intro sprite covers
  have hsize : 8 * m.memory.display.bytes.size = 2048 := congrArg (8 * ·) m.memory.size_display
  obtain ⟨first, m₁, hexecute₁, hfirst⟩ := draws_of_fits hdraw hfits
  obtain ⟨second, m₂, hexecute₂, hsecond⟩ := draws_of_fits hdraw (hfirst.index ▸ hfits)
  -- the first draw leaves the rows alone, so the second draws them again
  have hsprite : m₁.memory.slice m₁.registers.index.toNat w.n.val = sprite := by
    rw [hfirst.index]
    apply Memory.slice_congr
    intro a hlow hhigh
    have hin : a < Memory.size := Nat.lt_of_lt_of_le hhigh hfits
    exact hfirst.below a (Nat.lt_of_not_le fun hle => hapart a hlow hhigh ⟨hle, hin⟩)
  rw [hsprite] at hsecond
  have hmet : m₁.get .flag = 1 ↔ ∃ p < 2048, covers p ∧ m.memory.display.bit p = true := by
    rw [hfirst.flag_eq_one_iff, hfirst.overlay.collided, hsize]
  have hmissed : m₂.get .flag = 1 ↔ ∃ p < 2048, covers p ∧ m.memory.display.bit p = false := by
    rw [hsecond.flag_eq_one_iff,
      hfirst.overlay.collided_again_iff (hfirst.overlay_again hx hy hsecond), hsize]
  refine ⟨m₁, m₂, run_execute_of_ok hexecute₁, run_execute_of_ok hexecute₂,
    hfirst.memory_again hx hy hsecond, hsecond.index.trans hfirst.index, ?_, hmet, hmissed, ?_,
    ?_, ?_⟩
  · intro z hz
    rw [hsecond.other z hz, hfirst.other z hz]
  · intro hnone hsome
    obtain ⟨p, hp, hcovers⟩ := hsome
    refine hmissed.mpr ⟨p, hp, hcovers, Bool.eq_false_iff.mpr fun hlit => ?_⟩
    rw [hmet.mpr ⟨p, hp, hcovers, hlit⟩] at hnone
    cases hnone
  · intro hstate hfetch
    exact step_of_cycle_ok hstate ((cycle_of_fetch hfetch).trans hexecute₁)
  · intro hstate hfetch
    exact step_of_cycle_ok (hfirst.state.trans hstate) ((cycle_of_fetch hfetch).trans hexecute₂)

/-- The glyph of zero in the last columns of the last row: of its five rows only the first falls on
the screen, and erasing that one sets the flag. -/
theorem zero_erased_in_corner :
    let m := ((loaded [0xD0, 0x15, 0xD0, 0x15] .standard (.ofSeed 1)).put ⟨0, by decide⟩ 60).put
      ⟨1, by decide⟩ 31
    Opcode.Fits 0xD015 "DXYN" ∧ m.registers.index.toNat + 5 ≤ Memory.size ∧
      ∃ m₁ m₂, (InPlace.execute (decode 0xD015)).run m = .ok () m₁ ∧
        (InPlace.execute (decode 0xD015)).run m₁ = .ok () m₂ ∧
        m₂.memory = m.memory ∧ m₂.get .flag = 1 := by
  intro m
  have hapart : ∀ a, m.registers.index.toNat ≤ a → a < m.registers.index.toNat + 5 →
      ¬ (Memory.displayBase ≤ a ∧ a < Memory.size) := by
    intro a _ hhigh hin
    change a < 5 at hhigh
    change 0xF00 ≤ a ∧ _ at hin
    omega
  obtain ⟨m₁, m₂, hfirst, hsecond, hmemory, -, -, -, hmissed, -⟩ :=
    drawn_twice_erased m 0xD015 (by decide) (by decide) (by decide) (by decide) hapart
  have hslice : m.memory.slice 0 5 = [0xF0, 0x90, 0x90, 0x90, 0xF0] := by decide +kernel
  have hcovers : Bitmap.Covers 60 31 (m.memory.slice 0 5) 2044 := by
    rw [hslice]
    exact ⟨0, 0xF0, rfl, 0, by decide, by decide, by decide⟩
  have hdark : m.memory.display.bit 2044 = false := by decide +kernel
  exact ⟨by decide, by decide, m₁, m₂, hfirst, hsecond, hmemory,
    hmissed.mpr ⟨2044, by decide, hcovers, hdark⟩⟩

end Machine

end Chip8
