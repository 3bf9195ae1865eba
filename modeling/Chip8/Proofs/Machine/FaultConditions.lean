import Chip8.Proofs.Instruction.Catalogue
import Chip8.Proofs.Machine.Reachable

/-!
# When a step faults

A step of a running machine has one outcome, and the opcode at the program counter, the index, the
depth of the call stack and the policy for unknown opcodes determine it.  `Machine.Provokes` lists
the conditions under which a fault comes, and a step ends with exactly the faults of that list; it
succeeds if the list has none.  No access wraps around the end of memory, since every one that would
is in the list.
-/

namespace Chip8

/-- The opcode reads or writes that many bytes from the index on. -/
inductive Opcode.Spans (w : Opcode) : Nat → Prop where
  | sprite (fits : w.Fits "DXYN") : w.Spans w.n.val
  | decimal (fits : w.Fits "FX33") : w.Spans 3
  | stored (fits : w.Fits "FX55") : w.Spans (w.x.val + 1)
  | loaded (fits : w.Fits "FX65") : w.Spans (w.x.val + 1)

namespace Machine

/-- The conditions for each fault of a step.  All but the first need the opcode to be fetched. -/
inductive Provokes (m : Machine) : Fault → Prop where
  | fetch (past : 4094 < m.pc.toNat) : m.Provokes (.addressOutOfRange m.pc 2)
  | underflow (fetched : m.pc.toNat ≤ 4094) (fits : m.opcode.Fits "00EE")
      (empty : m.stack.depth = 0) : m.Provokes (.stackUnderflow m.pc)
  | overflow (fetched : m.pc.toNat ≤ 4094) (fits : m.opcode.Fits "2NNN")
      (full : m.stack.depth = 24) : m.Provokes (.stackOverflow m.pc)
  | access {len : Nat} (fetched : m.pc.toNat ≤ 4094) (spans : m.opcode.Spans len)
      (past : 4096 < m.registers.index.toNat + len) :
      m.Provokes (.addressOutOfRange m.registers.index len)
  | unknown (fetched : m.pc.toNat ≤ 4094) (strict : m.config.unknown = .strict)
      (unlisted : ¬ m.opcode.Listed) : m.Provokes (.unknownOpcode m.opcode m.pc)

variable {m : Machine} {fault : Fault}

theorem fetch_eq_error_iff :
    m.fetch = .error fault ↔ 4094 < m.pc.toNat ∧ fault = .addressOutOfRange m.pc 2 := by
  rw [fetch, Memory.readWord, map_eq_error_iff, Memory.checkRange_eq_error_iff]
  change 4096 < m.pc.toNat + 2 ∧ _ ↔ _
  apply and_congr_left
  intro _
  omega

theorem fetch_cases :
    (4094 < m.pc.toNat ∧ m.fetch = .error (.addressOutOfRange m.pc 2)) ∨
      m.pc.toNat ≤ 4094 ∧ m.fetch = .ok m.opcode := by
  by_cases hpc : m.pc.toNat ≤ 4094
  · exact .inr ⟨hpc, fetch_of_le hpc⟩
  · exact .inl ⟨Nat.lt_of_not_le hpc, fetch_eq_error_iff.mpr ⟨Nat.lt_of_not_le hpc, rfl⟩⟩

/-! ## Faults of one instruction -/

theorem read_eq_error_iff {addr : UInt16} {len : Nat} :
    m.memory.read addr len = .error fault ↔
      4096 < addr.toNat + len ∧ fault = .addressOutOfRange addr len :=
  map_eq_error_iff.trans Memory.checkRange_eq_error_iff

theorem store_eq_error_iff {data : List UInt8} :
    m.store data = .error fault ↔
      4096 < m.registers.index.toNat + data.length ∧
        fault = .addressOutOfRange m.registers.index data.length :=
  map_eq_error_iff.trans (map_eq_error_iff.trans Memory.checkRange_eq_error_iff)

theorem ite_error_eq_error_iff {α : Type} {c : Prop} [Decidable c] {reason : Fault} {a : α} :
    (if c then .error reason else .ok a) = (.error fault : Except Fault α) ↔
      c ∧ fault = reason := by
  by_cases h : c <;> simp [h, eq_comm]

theorem execute_ret_eq_error_iff (hstack : m.stack.Sound) :
    m.execute .ret = .error fault ↔ m.stack.depth = 0 ∧ fault = .stackUnderflow m.pc := by
  rw [execute, map_eq_error_iff, hstack.pop_eq]
  exact ite_error_eq_error_iff

theorem execute_call_eq_error_iff (hstack : m.stack.Sound) {nnn : UInt16} :
    m.execute (.call nnn) = .error fault ↔
      m.stack.depth = 24 ∧ fault = .stackOverflow m.pc := by
  rw [execute, map_eq_error_iff, hstack.push_eq]
  exact ite_error_eq_error_iff

theorem execute_unknown_eq_error_iff {w : Opcode} :
    m.execute (.unknown w) = .error fault ↔
      m.config.unknown = .strict ∧ fault = .unknownOpcode w m.pc := by
  rw [execute, passOver]
  cases m.config.unknown <;> simp [eq_comm]

/-- A fault of the fetched opcode is one of the list. -/
theorem provokes_of_execute_error (hstack : m.stack.Sound) (hpc : m.pc.toNat ≤ 4094)
    (h : m.execute (Instruction.decode m.opcode) = .error fault) : m.Provokes fault := by
  cases hdecode : Instruction.decode m.opcode with
  | ret =>
    rw [hdecode, execute_ret_eq_error_iff hstack] at h
    obtain ⟨hempty, rfl⟩ := h
    exact .underflow hpc (Instruction.decode_eq_ret_iff.mp hdecode) hempty
  | call nnn =>
    rw [hdecode, execute_call_eq_error_iff hstack] at h
    obtain ⟨hfull, rfl⟩ := h
    exact .overflow hpc (Instruction.decode_eq_call_iff.mp hdecode).1 hfull
  | draw x y rows =>
    obtain ⟨hfits, rfl, rfl, rfl⟩ := Instruction.decode_eq_draw_iff.mp hdecode
    rw [hdecode, execute, map_eq_error_iff, read_eq_error_iff] at h
    obtain ⟨hpast, rfl⟩ := h
    exact .access hpc (.sprite hfits) hpast
  | storeDecimal x =>
    obtain ⟨hfits, rfl⟩ := Instruction.decode_eq_storeDecimal_iff.mp hdecode
    rw [hdecode, execute, map_eq_error_iff, store_eq_error_iff] at h
    obtain ⟨hpast, rfl⟩ := h
    exact .access hpc (.decimal hfits) hpast
  | storeRegisters x =>
    obtain ⟨hfits, rfl⟩ := Instruction.decode_eq_storeRegisters_iff.mp hdecode
    rw [hdecode, execute, map_eq_error_iff, store_eq_error_iff, Registers.length_upTo] at h
    obtain ⟨hpast, rfl⟩ := h
    exact .access hpc (.stored hfits) hpast
  | loadRegisters x =>
    obtain ⟨hfits, rfl⟩ := Instruction.decode_eq_loadRegisters_iff.mp hdecode
    rw [hdecode, execute, map_eq_error_iff, read_eq_error_iff] at h
    obtain ⟨hpast, rfl⟩ := h
    exact .access hpc (.loaded hfits) hpast
  | unknown w =>
    obtain ⟨hunlisted, rfl⟩ := Instruction.decode_eq_unknown_iff.mp hdecode
    rw [hdecode, execute_unknown_eq_error_iff] at h
    obtain ⟨hstrict, rfl⟩ := h
    exact .unknown hpc hstrict hunlisted
  | _ =>
    -- the others cannot fail
    rw [hdecode] at h
    cases h

/-- An access past the end of memory fails. -/
theorem execute_error_of_spans {w : Opcode} {len : Nat} (h : w.Spans len)
    (hpast : 4096 < m.registers.index.toNat + len) :
    m.execute (Instruction.decode w) = .error (.addressOutOfRange m.registers.index len) := by
  cases h with
  | sprite fits =>
    rw [Instruction.decode_eq_draw_iff.mpr ⟨fits, rfl, rfl, rfl⟩, execute, map_eq_error_iff]
    exact read_eq_error_iff.mpr ⟨hpast, rfl⟩
  | decimal fits =>
    rw [Instruction.decode_eq_storeDecimal_iff.mpr ⟨fits, rfl⟩, execute, map_eq_error_iff]
    exact store_eq_error_iff.mpr ⟨hpast, rfl⟩
  | stored fits =>
    rw [Instruction.decode_eq_storeRegisters_iff.mpr ⟨fits, rfl⟩, execute, map_eq_error_iff,
      store_eq_error_iff, Registers.length_upTo]
    exact ⟨hpast, rfl⟩
  | loaded fits =>
    rw [Instruction.decode_eq_loadRegisters_iff.mpr ⟨fits, rfl⟩, execute, map_eq_error_iff]
    exact read_eq_error_iff.mpr ⟨hpast, rfl⟩

/-! ## Faults of a step -/

theorem cycle_eq_error_iff (hstack : m.stack.Sound) :
    m.cycle = .error fault ↔ m.Provokes fault := by
  constructor
  · intro h
    obtain ⟨hpc, hfetch⟩ | ⟨hpc, hfetch⟩ := m.fetch_cases
    · rw [cycle_of_fetch_error hfetch] at h
      cases h
      exact .fetch hpc
    · rw [cycle_of_fetch hfetch] at h
      exact provokes_of_execute_error hstack hpc h
  · intro h
    cases h with
    | fetch past => exact cycle_of_fetch_error (fetch_eq_error_iff.mpr ⟨past, rfl⟩)
    | underflow fetched fits empty =>
      rw [cycle_of_fetch (fetch_of_le fetched), Instruction.decode_eq_ret_iff.mpr fits]
      exact (execute_ret_eq_error_iff hstack).mpr ⟨empty, rfl⟩
    | overflow fetched fits full =>
      rw [cycle_of_fetch (fetch_of_le fetched), Instruction.decode_eq_call_iff.mpr ⟨fits, rfl⟩]
      exact (execute_call_eq_error_iff hstack).mpr ⟨full, rfl⟩
    | access fetched spans past =>
      rw [cycle_of_fetch (fetch_of_le fetched), execute_error_of_spans spans past]
    | unknown fetched strict unlisted =>
      rw [cycle_of_fetch (fetch_of_le fetched),
        Instruction.decode_eq_unknown_iff.mpr ⟨unlisted, rfl⟩]
      exact execute_unknown_eq_error_iff.mpr ⟨strict, rfl⟩

theorem step_eq_error_iff (hstate : m.state = .running) (hstack : m.stack.Sound) :
    m.step.1 = .error fault ↔ m.Provokes fault := by
  rw [← cycle_eq_error_iff hstack]
  cases hcycle : m.cycle with
  | ok m' => simp [step_of_cycle_ok hstate hcycle]
  | error reason => simp [step_of_cycle_error hstate hcycle]

/-! ## One fault at a time -/

theorem provokes_fetch_iff :
    m.Provokes (.addressOutOfRange m.pc 2) ↔ 4094 < m.pc.toNat := by
  refine ⟨fun h => ?_, .fetch⟩
  generalize hreason : Fault.addressOutOfRange m.pc 2 = reason at h
  cases h with
  | fetch past => exact past
  | access fetched spans past =>
    -- an opcode that was fetched from the index leaves room for two bytes there
    obtain ⟨hindex, rfl⟩ := Fault.addressOutOfRange.inj hreason
    rw [← hindex] at past
    omega
  | underflow | overflow | unknown => cases hreason

theorem provokes_underflow_iff (hpc : m.pc.toNat ≤ 4094) :
    m.Provokes (.stackUnderflow m.pc) ↔ m.opcode.Fits "00EE" ∧ m.stack.depth = 0 := by
  refine ⟨fun h => ?_, fun h => .underflow hpc h.1 h.2⟩
  generalize hreason : Fault.stackUnderflow m.pc = reason at h
  cases h with
  | underflow fetched fits empty => exact ⟨fits, empty⟩
  | fetch | overflow | access | unknown => cases hreason

theorem provokes_overflow_iff (hpc : m.pc.toNat ≤ 4094) :
    m.Provokes (.stackOverflow m.pc) ↔ m.opcode.Fits "2NNN" ∧ m.stack.depth = 24 := by
  refine ⟨fun h => ?_, fun h => .overflow hpc h.1 h.2⟩
  generalize hreason : Fault.stackOverflow m.pc = reason at h
  cases h with
  | overflow fetched fits full => exact ⟨fits, full⟩
  | fetch | underflow | access | unknown => cases hreason

theorem provokes_access_iff (hpc : m.pc.toNat ≤ 4094) {len : Nat} :
    m.Provokes (.addressOutOfRange m.registers.index len) ↔
      m.opcode.Spans len ∧ 4096 < m.registers.index.toNat + len := by
  refine ⟨fun h => ?_, fun h => .access hpc h.1 h.2⟩
  generalize hreason : Fault.addressOutOfRange m.registers.index len = reason at h
  cases h with
  | fetch past => exact absurd hpc (Nat.not_le_of_lt past)
  | access fetched spans past =>
    obtain ⟨-, rfl⟩ := Fault.addressOutOfRange.inj hreason
    exact ⟨spans, past⟩
  | underflow | overflow | unknown => cases hreason

theorem provokes_unknown_iff (hpc : m.pc.toNat ≤ 4094) :
    m.Provokes (.unknownOpcode m.opcode m.pc) ↔
      m.config.unknown = .strict ∧ ¬ m.opcode.Listed := by
  refine ⟨fun h => ?_, fun h => .unknown hpc h.1 h.2⟩
  generalize hreason : Fault.unknownOpcode m.opcode m.pc = reason at h
  cases h with
  | unknown fetched strict unlisted => exact ⟨strict, unlisted⟩
  | fetch | underflow | overflow | access => cases hreason

/-- A step of a reachable machine that runs fails exactly with the faults that its state provokes,
each under its own condition, and succeeds if its state provokes none.  So a step that succeeds has
accessed nothing past the end of memory. -/
theorem step_fails_iff_provoked {program : List UInt8} {config : Config} {chance : RandomSource}
    {m₀ : Machine} (hstart : start program config chance = .ok m₀) (requests : List Request)
    (hstate : (m₀.run requests).state = .running) :
    let m := m₀.run requests
    (m.step.1 = .error (.addressOutOfRange m.pc 2) ↔ 4094 < m.pc.toNat) ∧
      (m.pc.toNat ≤ 4094 →
        (m.step.1 = .error (.stackUnderflow m.pc) ↔
          m.opcode.Fits "00EE" ∧ m.stack.depth = 0) ∧
        (m.step.1 = .error (.stackOverflow m.pc) ↔
          m.opcode.Fits "2NNN" ∧ m.stack.depth = 24) ∧
        (∀ len, m.step.1 = .error (.addressOutOfRange m.registers.index len) ↔
          m.opcode.Spans len ∧ 4096 < m.registers.index.toNat + len) ∧
        (m.step.1 = .error (.unknownOpcode m.opcode m.pc) ↔
          m.config.unknown = .strict ∧ ¬ m.opcode.Listed)) ∧
      (∀ fault, m.step.1 = .error fault ↔ m.Provokes fault) ∧
      (m.step.1 = .ok () ↔ ∀ fault, ¬ m.Provokes fault) ∧
      (m.step.1 = .ok () → m.pc.toNat + 2 ≤ 4096 ∧
        ∀ len, m.opcode.Spans len → m.registers.index.toNat + len ≤ 4096) := by
  intro m
  have hfails : ∀ fault, m.step.1 = .error fault ↔ m.Provokes fault := fun fault =>
    step_eq_error_iff hstate (sound_run (sound_start hstart) requests)
  have hsucceeds : m.step.1 = .ok () ↔ ∀ fault, ¬ m.Provokes fault := by
    simp only [← hfails]
    cases m.step.1 <;> simp
  refine ⟨(hfails _).trans provokes_fetch_iff,
    fun hpc => ⟨(hfails _).trans (provokes_underflow_iff hpc),
      (hfails _).trans (provokes_overflow_iff hpc),
      fun len => (hfails _).trans (provokes_access_iff hpc),
      (hfails _).trans (provokes_unknown_iff hpc)⟩,
    hfails, hsucceeds, fun hok => ?_⟩
  have hnone := hsucceeds.mp hok
  have hpc : m.pc.toNat ≤ 4094 := Nat.le_of_not_lt fun past => hnone _ (.fetch past)
  exact ⟨Nat.add_le_add_right hpc 2, fun len hspans =>
    Nat.le_of_not_lt fun past => hnone _ (.access hpc hspans past)⟩

/-- After `1FFF` the program counter is one byte short of a whole opcode. -/
theorem jump_to_last_byte_faults :
    ((loaded [0x1F, 0xFF] .standard (.ofSeed 1)).run [.step]).step.1 =
      .error (.addressOutOfRange 0xFFF 2) := by
  have hstart : start [0x1F, 0xFF] .standard (.ofSeed 1) =
      .ok (loaded [0x1F, 0xFF] .standard (.ofSeed 1)) := start_loaded (by decide) (by decide)
  have hstate : ((loaded [0x1F, 0xFF] .standard (.ofSeed 1)).run [.step]).state = .running := by
    decide +kernel
  have hpc : ((loaded [0x1F, 0xFF] .standard (.ofSeed 1)).run [.step]).pc = 0xFFF := by
    decide +kernel
  obtain ⟨hfetch, -⟩ := step_fails_iff_provoked hstart [.step] hstate
  rw [hpc] at hfetch
  exact hfetch.mpr (by decide)

end Machine

end Chip8
