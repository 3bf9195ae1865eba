import Chip8.Proofs.Instruction.Catalogue
import Chip8.Proofs.Machine.Reachable

/-!
# Footprints

Where in memory a machine can write, read off the opcode that it is about to execute: a clear or a
draw writes the display, a call the free slot of the call stack, and the two stores write from the
index on.  No other opcode writes at all, and no request but a step does.  So outside the display
and the region of the call stack, over any run, a byte is lost to a store or not at all.
-/

namespace Chip8

/-- Machine `m`, about to execute opcode `w`, may write address `a`. -/
inductive Machine.Footprint (m : Machine) (w : Opcode) (a : Nat) : Prop where
  | display (fits : w.Fits "00E0" ∨ w.Fits "DXYN") (low : 0xF00 ≤ a) (high : a < 0x1000)
  /-- The free slot, which lies in the region of the call stack. -/
  | slot (fits : w.Fits "2NNN") (byte : a = m.stack.pointer.toNat ∨ a = m.stack.pointer.toNat + 1)
      (low : 0x1D0 ≤ m.stack.pointer.toNat) (high : m.stack.pointer.toNat + 2 ≤ 0x200)
  | decimal (fits : w.Fits "FX33") (low : m.registers.index.toNat ≤ a)
      (high : a < m.registers.index.toNat + 3)
  | registers (fits : w.Fits "FX55") (low : m.registers.index.toNat ≤ a)
      (high : a < m.registers.index.toNat + w.x.val + 1)

theorem Instruction.decode_of_paints {w : Opcode} (h : (decode w).paints = true) :
    w.Fits "00E0" ∨ w.Fits "DXYN" := by
  cases hdecode : decode w with
  | clear => exact .inl (decode_eq_clear_iff.mp hdecode)
  | draw x y rows => exact .inr (decode_eq_draw_iff.mp hdecode).1
  | _ =>
    rw [hdecode] at h
    cases h

namespace Machine

variable {m m' : Machine} {request : Request} {requests : List Request} {a : Nat}

/-- A call that succeeds finds a slot of the region free. -/
theorem free_slot_of_call {nnn : UInt16} (hstack : m.stack.Sound)
    (h : m.execute (.call nnn) = .ok m') :
    0x1D0 ≤ m.stack.pointer.toNat ∧ m.stack.pointer.toNat + 2 ≤ 0x200 := by
  obtain ⟨result, hpush, -⟩ := map_eq_ok_iff.mp h
  rw [hstack.push_eq] at hpush
  split at hpush
  · cases hpush
  · next hfull =>
    have hpointer := hstack.pointer_eq
    have hdepth : m.stack.depth ≤ 24 := hstack.depth_le
    change ¬ m.stack.depth = 24 at hfull
    omega

theorem footprint_of_stores {w : Opcode}
    (h : Execution.Stores ⟨m, Instruction.decode w⟩ a) : m.Footprint w a := by
  rw [stores_iff] at h
  obtain ⟨hlow, hhigh⟩ := h
  cases hdecode : Instruction.decode w with
  | storeDecimal x =>
    rw [hdecode] at hhigh
    exact .decimal (Instruction.decode_eq_storeDecimal_iff.mp hdecode).1 hlow hhigh
  | storeRegisters x =>
    obtain ⟨hfits, rfl⟩ := Instruction.decode_eq_storeRegisters_iff.mp hdecode
    rw [hdecode] at hhigh
    exact .registers hfits hlow hhigh
  | _ =>
    -- the others store no byte
    rw [hdecode] at hhigh
    exact absurd hhigh (Nat.not_lt_of_le hlow)

/-- What an executed opcode writes is in its footprint. -/
theorem footprint_of_writes {w : Opcode} (hstack : m.stack.Sound)
    (hexecute : m.execute (Instruction.decode w) = .ok m')
    (h : Execution.Writes ⟨m, Instruction.decode w⟩ a) : m.Footprint w a := by
  rcases h with ⟨hpaints, hlow, hhigh⟩ | ⟨⟨nnn, hcall⟩, hlow, hhigh⟩ | hstores
  · exact .display (Instruction.decode_of_paints hpaints) hlow hhigh
  · change Instruction.decode w = .call nnn at hcall
    rw [hcall] at hexecute
    obtain ⟨hslot, hend⟩ := free_slot_of_call hstack hexecute
    change m.stack.pointer.toNat ≤ a at hlow
    change a < m.stack.pointer.toNat + 2 at hhigh
    exact .slot (Instruction.decode_eq_call_iff.mp hcall).1 (by omega) hslot hend
  · exact footprint_of_stores hstores

/-- A request that changes a byte is a step that executes an opcode with that byte in its
footprint. -/
theorem footprint_of_byte_ne (hstack : m.stack.Sound)
    (h : (m.perform request).2.memory.byte a ≠ m.memory.byte a) :
    request = .step ∧ m.state = .running ∧ (m.perform request).1 = .done ∧
      ∃ w, m.fetch = .ok w ∧ m.Footprint w a := by
  cases hexecuted : m.executed request with
  | none => exact absurd (by rw [(idle_of_not_executed hexecuted).memory]) h
  | some e =>
    obtain ⟨rfl, hm, hstate, w, m', hfetch, hdecode, hexecute⟩ := executed_eq_some_iff.mp hexecuted
    obtain ⟨-, hperform⟩ := perform_of_executed hexecuted
    rw [← hdecode] at hperform hexecute
    have hcycle : m.cycle = .ok m' := by rw [cycle_of_fetch hfetch, hexecute]
    refine ⟨rfl, hstate, by rw [perform_step_of_ok hstate hcycle], w, hfetch, ?_⟩
    apply footprint_of_writes hstack hexecute
    exact Classical.byContradiction fun hwrites => h (byte_execute hperform hstack hwrites)

/-- Outside the display and the region of the call stack, an execution writes only by a store. -/
theorem stores_of_writes {e : Execution} (hstack : e.machine.stack.Sound)
    (ha : a < 0x1D0 ∨ 0x200 ≤ a ∧ a < 0xF00) {m' : Machine}
    (hexecute : e.machine.execute e.instruction = .ok m') (h : e.Writes a) : e.Stores a := by
  rcases h with ⟨-, hlow, -⟩ | ⟨⟨nnn, hcall⟩, hlow, hhigh⟩ | hstores
  · change 0xF00 ≤ a at hlow
    omega
  · rw [hcall] at hexecute
    obtain ⟨hslot, hend⟩ := free_slot_of_call hstack hexecute
    omega
  · exact hstores

theorem byte_perform_of_not_stores (hstack : m.stack.Sound)
    (ha : a < 0x1D0 ∨ 0x200 ≤ a ∧ a < 0xF00)
    (h : ∀ e, m.executed request = some e → ¬ e.Stores a) :
    (m.perform request).2.memory.byte a = m.memory.byte a := by
  cases hexecuted : m.executed request with
  | none => rw [(idle_of_not_executed hexecuted).memory]
  | some e =>
    obtain ⟨rfl, hexecute⟩ := perform_of_executed hexecuted
    refine byte_execute hexecute hstack fun hwrites => h e hexecuted ?_
    exact stores_of_writes hstack ha hexecute hwrites

theorem byte_run_of_not_stores (hstack : m.stack.Sound)
    (ha : a < 0x1D0 ∨ 0x200 ≤ a ∧ a < 0xF00) (h : ∀ e ∈ m.executions requests, ¬ e.Stores a) :
    (m.run requests).memory.byte a = m.memory.byte a := by
  induction requests generalizing m with
  | nil => rfl
  | cons request requests ih =>
    calc (m.run (request :: requests)).memory.byte a
        = (m.perform request).2.memory.byte a :=
          ih (sound_perform hstack request) fun e he => h e (mem_executions_cons.mpr (.inr he))
      _ = m.memory.byte a :=
          byte_perform_of_not_stores hstack ha fun e he => h e (mem_executions_cons.mpr (.inl he))

/-- In a reachable machine a byte changes only by a step whose opcode has it in its footprint, and
memory keeps its length.  Over a whole run, a byte of the font, of the unused area or of the program
keeps its first value unless an executed store covered it. -/
theorem memory_changes_in_footprint {program : List UInt8} {config : Config} {chance : RandomSource}
    {m₀ : Machine} (hstart : start program config chance = .ok m₀) (requests : List Request) :
    let m := m₀.run requests
    m.memory.bytes.toList.length = 4096 ∧
      (∀ request a, (m.perform request).2.memory.byte a ≠ m.memory.byte a →
        request = .step ∧ m.state = .running ∧ (m.perform request).1 = .done ∧
          ∃ w, m.fetch = .ok w ∧ m.Footprint w a) ∧
      ∀ a, a < 0x1D0 ∨ 0x200 ≤ a ∧ a < 0xF00 → m.memory.byte a ≠ m₀.memory.byte a →
        ∃ e ∈ m₀.executions requests, e.Stores a := by
  intro m
  have hsound := sound_start hstart
  refine ⟨Vector.length_toList, fun request a => footprint_of_byte_ne (sound_run hsound requests),
    fun a ha hchanged => ?_⟩
  refine Classical.byContradiction fun hnone => hchanged ?_
  exact byte_run_of_not_stores hsound ha fun e he hstores => hnone ⟨e, he, hstores⟩

/-- Registers stored at the bottom of memory go over the font, and only there. -/
theorem font_overwritten :
    (loaded [0xF1, 0x55] .standard (.ofSeed 1)).Footprint 0xF155 0 ∧
      ∃ e ∈ (loaded [0xF1, 0x55] .standard (.ofSeed 1)).executions [.step], e.Stores 1 := by
  have hstart : start [0xF1, 0x55] .standard (.ofSeed 1) =
      .ok (loaded [0xF1, 0x55] .standard (.ofSeed 1)) := start_loaded (by decide) (by decide)
  have hfetch : (loaded [0xF1, 0x55] .standard (.ofSeed 1)).fetch = .ok 0xF155 :=
    fetch_eq_ok_iff.mpr ⟨by decide, by decide +kernel⟩
  obtain ⟨-, hstep, -⟩ := memory_changes_in_footprint hstart []
  obtain ⟨-, -, hrun⟩ := memory_changes_in_footprint hstart [.step]
  obtain ⟨-, -, -, w, hw, hfootprint⟩ := hstep .step 0 (by decide +kernel)
  obtain rfl := Except.ok.inj (hw.symm.trans hfetch)
  exact ⟨hfootprint, hrun 1 (by decide) (by decide +kernel)⟩

end Machine

end Chip8
