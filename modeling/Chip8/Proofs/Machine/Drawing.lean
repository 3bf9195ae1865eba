import Chip8.Proofs.Machine.Reachable
import Chip8.Proofs.Sprite

/-!
# The draw instruction

A draw reads its rows from memory and both coordinates from registers before it writes anything.
So the law of drawing holds for the sprite as it was, also where the rows lie in the display or a
coordinate is the flag that receives the collision.
-/

namespace Chip8.Machine

theorem execute_draw (m : Machine) (x y : Register) {rows : Fin 16}
    (hrange : m.registers.index.toNat + rows.val ≤ Memory.size) :
    m.execute (.draw x y rows) =
      .ok (m.drawSprite x y (m.memory.slice m.registers.index.toNat rows.val)).next := by
  have hread := Memory.read_eq_ok_iff.mpr
    ⟨hrange, Eq.refl (m.memory.slice m.registers.index.toNat rows.val)⟩
  rw [execute, hread]
  rfl

theorem step_draw {m : Machine} {opcode : Opcode} (hstate : m.state = .running)
    (hfetch : m.fetch = .ok opcode) (hfamily : opcode.family = 0xD)
    (hrange : m.registers.index.toNat + opcode.n.val ≤ Memory.size) :
    m.step = (.ok (), (m.drawSprite opcode.x opcode.y
      (m.memory.slice m.registers.index.toNat opcode.n.val)).next) := by
  have hdecode : Instruction.decode opcode = .draw opcode.x opcode.y opcode.n := by
    simp [Instruction.decode, hfamily]
  apply step_of_cycle_ok hstate
  rw [cycle_of_fetch hfetch, hdecode, execute_draw m _ _ hrange]

theorem overlay_drawSprite (m : Machine) (x y : Register) (rows : List UInt8) :
    m.memory.display.Overlay (m.get x).toNat (m.get y).toNat rows
      ⟨(m.memory.display.draw (m.get x) (m.get y) rows).collided,
        (m.drawSprite x y rows).next.memory.display⟩ := by
  have hdisplay : (m.drawSprite x y rows).next.memory.display =
      (m.memory.display.draw (m.get x) (m.get y) rows).bitmap := by
    rw [memory_next]
    apply Memory.display_setDisplay
    rw [Bitmap.draw, Bitmap.size_drawRows, Memory.size_display]
  rw [hdisplay]
  exact Bitmap.overlay_draw ..

theorem get_drawSprite (m : Machine) (x y z : Register) (rows : List UInt8) :
    (m.drawSprite x y rows).get z =
      if .flag = z then
        if (m.memory.display.draw (m.get x) (m.get y) rows).collided then 1 else 0
      else m.get z :=
  m.registers.get_set ..

theorem byte_drawSprite (m : Machine) (x y : Register) (rows : List UInt8) {a : Nat}
    (h : a < Memory.displayBase) : (m.drawSprite x y rows).memory.byte a = m.memory.byte a := by
  rw [drawSprite, Memory.byte_setDisplay, if_neg]
  intro hdisplay
  obtain ⟨hle, -⟩ := hdisplay
  exact absurd h (Nat.not_lt_of_le hle)

/-- Drawing flips exactly the pixels that the sprite covers, at every position, in a bitmap of any
length and for any number of rows.  A draw instruction changes the display in this way, by what it
finds in registers and memory, and besides the display nothing but the flag. -/
theorem sprites_drawn_by_pixels :
    (∀ (b : Bitmap) (x y : UInt8) (rows : List UInt8),
      b.Overlay x.toNat y.toNat rows (b.draw x y rows)) ∧
    ∀ (m : Machine) (opcode : Opcode), m.state = .running → m.fetch = .ok opcode →
      opcode.family = 0xD → m.registers.index.toNat + opcode.n.val ≤ Memory.size →
        ∃ collided m', m.step = (.ok (), m') ∧
          m.memory.display.Overlay (m.get opcode.x).toNat (m.get opcode.y).toNat
            (m.memory.slice m.registers.index.toNat opcode.n.val) ⟨collided, m'.memory.display⟩ ∧
          m'.get .flag = (if collided then 1 else 0) ∧
          (∀ z, z ≠ .flag → m'.get z = m.get z) ∧
          m'.registers.index = m.registers.index ∧
          ∀ a < Memory.displayBase, m'.memory.byte a = m.memory.byte a := by
  refine ⟨Bitmap.overlay_draw, fun m opcode hstate hfetch hfamily hrange => ?_⟩
  have hstep := step_draw hstate hfetch hfamily hrange
  refine ⟨_, _, hstep, overlay_drawSprite m opcode.x opcode.y _, ?_, fun z hz => ?_, rfl,
    fun a ha => byte_drawSprite m _ _ _ ha⟩
  · exact (get_drawSprite ..).trans (if_pos rfl)
  · exact (get_drawSprite ..).trans (if_neg (Ne.symm hz))

/-- The glyph of zero, drawn into the left upper corner. -/
theorem zero_drawn_in_corner :
    ∃ collided m', (loaded [0xD0, 0x05] .standard (.ofSeed 1)).step = (.ok (), m') ∧
      (loaded [0xD0, 0x05] .standard (.ofSeed 1)).memory.display.Overlay 0 0
        [0xF0, 0x90, 0x90, 0x90, 0xF0] ⟨collided, m'.memory.display⟩ ∧
      m'.get .flag = if collided then 1 else 0 := by
  have hslice : (loaded [0xD0, 0x05] .standard (.ofSeed 1)).memory.slice 0 5 =
      [0xF0, 0x90, 0x90, 0x90, 0xF0] := by decide +kernel
  obtain ⟨collided, m', hstep, hoverlay, hflag, -⟩ :=
    sprites_drawn_by_pixels.2 (loaded [0xD0, 0x05] .standard (.ofSeed 1)) 0xD005 rfl
      (fetch_eq_ok_iff.mpr ⟨by decide, by decide +kernel⟩) rfl (by decide)
  exact ⟨collided, m', hstep, hslice ▸ hoverlay, hflag⟩

end Chip8.Machine
