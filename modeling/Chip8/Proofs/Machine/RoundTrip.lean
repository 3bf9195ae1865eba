import Chip8.Proofs.Instruction.Catalogue
import Chip8.Proofs.Machine.Effect
import Chip8.Proofs.Machine.Reachable

/-!
# Registers kept in memory

Bytes that are stored and read back at the same address are the same bytes, and storing what was
read changes nothing.  So the store and the load of registers undo each other, wherever the bytes
fit, as long as the program sets the index back: both move it past the bytes.  The digits of a
register are stored the same way, except that the index stays.

An instruction is carried out here as a step does it once the opcode is fetched, on any machine.
-/

namespace Chip8

/-! ## Bytes -/

namespace Registers

theorem getElem?_upTo (r : Registers) (x z : Register) :
    (r.upTo x)[z.val]? = if z ≤ x then some (r.get z) else none := by
  rw [upTo, List.getElem?_take, Vector.getElem?_toList, Vector.getElem?_eq_getElem z.isLt]
  simp only [Nat.lt_succ_iff, Fin.le_def]
  rfl

/-- The list of the first registers is told by its length and its bytes. -/
theorem upTo_eq {r : Registers} {x : Register} {bytes : List UInt8}
    (hlength : bytes.length = x.val + 1) (h : ∀ z ≤ x, bytes[z.val]? = some (r.get z)) :
    r.upTo x = bytes := by
  apply List.ext_getElem?
  intro k
  by_cases hk : k < x.val + 1
  · have hx := x.isLt
    let z : Register := ⟨k, by omega⟩
    have hz : z ≤ x := Nat.le_of_lt_succ hk
    calc (r.upTo x)[z.val]? = some (r.get z) := by rw [getElem?_upTo, if_pos hz]
      _ = bytes[z.val]? := (h z hz).symm
  · have hbeyond : x.val + 1 ≤ k := Nat.le_of_not_lt hk
    rw [List.getElem?_eq_none (r.length_upTo x ▸ hbeyond),
      List.getElem?_eq_none (hlength ▸ hbeyond)]

end Registers

/-- Three digits tell the byte that they were taken from. -/
theorem decimalDigits_value (b : UInt8) :
    ∃ hundreds tens ones : UInt8, decimalDigits b = [hundreds, tens, ones] ∧
      hundreds.toNat ≤ 9 ∧ tens.toNat ≤ 9 ∧ ones.toNat ≤ 9 ∧
        100 * hundreds.toNat + 10 * tens.toNat + ones.toNat = b.toNat := by
  have hb := b.toNat_lt
  refine ⟨b / 100, b / 10 % 10, b % 10, rfl, ?_⟩
  simp only [UInt8.toNat_div, UInt8.toNat_mod, UInt8.reduceToNat]
  omega

namespace Machine

/-- The decimal digits of a register are in memory at the index, and nothing else is different in
memory, in the registers or in the index. -/
structure Digits (m : Machine) (x : Register) (m' : Machine) : Prop where
  digit : ∀ k < 3, (m'.memory.byte (m.registers.index.toNat + k)).toNat ≤ 9
  value : 100 * (m'.memory.byte m.registers.index.toNat).toNat +
      10 * (m'.memory.byte (m.registers.index.toNat + 1)).toNat +
        (m'.memory.byte (m.registers.index.toNat + 2)).toNat = (m.get x).toNat
  other : ∀ a, (a < m.registers.index.toNat ∨ m.registers.index.toNat + 3 ≤ a) →
    m'.memory.byte a = m.memory.byte a
  registers : ∀ z, m'.get z = m.get z
  index : m'.registers.index = m.registers.index

variable {m m' : Machine} {x : Register}

theorem get_putIndex (m : Machine) (value : Nat) (z : Register) :
    (m.putIndex value).get z = m.get z := rfl

theorem memory_putIndex (m : Machine) (value : Nat) : (m.putIndex value).memory = m.memory := rfl

theorem index_putIndex (m : Machine) (value : Nat) :
    (m.putIndex value).registers.index = UInt16.ofNat value := rfl

theorem toNat_index_past (m : Machine) (hfits : m.registers.index.toNat + x.val + 1 ≤ Memory.size) :
    (UInt16.ofNat (m.registers.index.toNat + x.val + 1)).toNat =
      m.registers.index.toNat + x.val + 1 :=
  UInt16.toNat_ofNat_of_lt' (Nat.lt_of_le_of_lt hfits (by decide))

theorem execute_storeRegisters (m : Machine)
    (hfits : m.registers.index.toNat + x.val + 1 ≤ Memory.size) :
    ∃ m', m.execute (.storeRegisters x) = .ok m' ∧
      m'.memory = m.memory.splice m.registers.index.toNat (m.registers.upTo x) ∧
        m'.registers.index.toNat = m.registers.index.toNat + x.val + 1 := by
  have hrange : m.registers.index.toNat + (m.registers.upTo x).length ≤ Memory.size := by
    rw [Registers.length_upTo]
    exact hfits
  refine ⟨_, map_eq_ok_iff.mpr ⟨_, store_eq_ok_iff.mpr ⟨hrange, rfl⟩, rfl⟩, rfl, ?_⟩
  exact m.toNat_index_past hfits

theorem execute_loadRegisters (m : Machine)
    (hfits : m.registers.index.toNat + x.val + 1 ≤ Memory.size) :
    ∃ m', m.execute (.loadRegisters x) = .ok m' ∧ m'.memory = m.memory ∧
      m'.registers.index.toNat = m.registers.index.toNat + x.val + 1 ∧
        ∀ z, m'.get z =
          ((m.memory.slice m.registers.index.toNat (x.val + 1))[z.val]?).getD (m.get z) := by
  refine ⟨_, map_eq_ok_iff.mpr ⟨_, Memory.read_eq_ok_iff.mpr ⟨hfits, rfl⟩, rfl⟩, ?_, ?_, ?_⟩
  · rw [memory_next, memory_putIndex]
  · exact m.toNat_index_past hfits
  · intro z
    rw [get_next, get_putIndex]
    exact m.registers.get_load _ z

theorem execute_storeDecimal (m : Machine) (x : Register)
    (hfits : m.registers.index.toNat + 3 ≤ Memory.size) :
    ∃ m', m.execute (.storeDecimal x) = .ok m' ∧
      m'.memory = m.memory.splice m.registers.index.toNat (decimalDigits (m.get x)) ∧
        m'.registers.index = m.registers.index ∧ ∀ z, m'.get z = m.get z := by
  refine ⟨_, map_eq_ok_iff.mpr ⟨_, store_eq_ok_iff.mpr ⟨hfits, rfl⟩, rfl⟩, rfl, rfl, ?_⟩
  intro z
  rw [get_next]
  rfl

theorem digits_of_splice (hfits : m.registers.index.toNat + 3 ≤ Memory.size)
    (hmemory : m'.memory =
      m.memory.splice m.registers.index.toNat (decimalDigits (m.get x)))
    (hindex : m'.registers.index = m.registers.index) (hget : ∀ z, m'.get z = m.get z) :
    m.Digits x m' := by
  obtain ⟨hundreds, tens, ones, hdigits, hhundreds, htens, hones, hvalue⟩ :=
    decimalDigits_value (m.get x)
  have hslice := m.memory.slice_splice _ (decimalDigits (m.get x)) hfits
  rw [← hmemory, hdigits] at hslice
  obtain ⟨hfirst, hsecond, hthird⟩ := Memory.slice_three_eq_iff.mp hslice
  refine ⟨?_, ?_, ?_, hget, hindex⟩
  · intro k hk
    obtain rfl | rfl | rfl : k = 0 ∨ k = 1 ∨ k = 2 := by omega
    · rwa [Nat.add_zero, hfirst]
    · rwa [hsecond]
    · rwa [hthird]
  · rw [hfirst, hsecond, hthird]
    exact hvalue
  · intro a ha
    rw [hmemory]
    apply Memory.byte_splice_of_outside
    change _ → ¬ a < m.registers.index.toNat + 3
    omega

/-! ## There and back -/

variable {m₂ : Machine}

/-- A load finds the registers that were stored. -/
theorem load_of_stored (hfits : m.registers.index.toNat + x.val + 1 ≤ Memory.size)
    (hmemory : m₂.memory = m.memory.splice m.registers.index.toNat (m.registers.upTo x))
    (hindex : m₂.registers.index = m.registers.index) :
    ∃ m₃, m₂.execute (.loadRegisters x) = .ok m₃ ∧ (∀ z ≤ x, m₃.get z = m.get z) ∧
      (∀ z, x < z → m₃.get z = m₂.get z) ∧
        m₃.registers.index.toNat = m.registers.index.toNat + x.val + 1 := by
  have hlength := m.registers.length_upTo x
  have hslice : m₂.memory.slice m.registers.index.toNat (x.val + 1) = m.registers.upTo x := by
    rw [hmemory, ← hlength]
    exact m.memory.slice_splice _ _ (hlength.symm ▸ hfits)
  obtain ⟨m₃, hexecute, -, hindex₃, hget⟩ := m₂.execute_loadRegisters (hindex ▸ hfits)
  rw [hindex] at hindex₃
  simp only [hindex, hslice, Registers.getElem?_upTo] at hget
  refine ⟨m₃, hexecute, ?_, ?_, hindex₃⟩
  · intro z hz
    rw [hget, if_pos hz]
    rfl
  · intro z hz
    have hbeyond : ¬ z ≤ x := Nat.not_le_of_lt hz
    rw [hget, if_neg hbeyond]
    rfl

/-- A store puts back what was loaded. -/
theorem store_of_loaded (hfits : m.registers.index.toNat + x.val + 1 ≤ Memory.size)
    (hmemory : m₂.memory = m.memory) (hindex : m₂.registers.index = m.registers.index)
    (hget : ∀ z ≤ x, m₂.get z = m.memory.byte (m.registers.index.toNat + z.val)) :
    ∃ m₃, m₂.execute (.storeRegisters x) = .ok m₃ ∧ m₃.memory = m.memory := by
  obtain ⟨m₃, hexecute, hmemory₃, -⟩ := m₂.execute_storeRegisters (hindex ▸ hfits)
  have hupTo : m₂.registers.upTo x = m.memory.slice m.registers.index.toNat (x.val + 1) := by
    apply Registers.upTo_eq (Memory.length_slice ..)
    intro z hz
    rw [Memory.getElem?_slice, if_pos (Nat.lt_succ_of_le hz)]
    exact congrArg some (hget z hz).symm
  refine ⟨m₃, hexecute, ?_⟩
  rw [hmemory₃, hmemory, hindex, hupTo]
  exact m.memory.splice_slice _ _

/-! ## Opcodes -/

open Instruction (decode decode_eq_storeRegisters_iff decode_eq_loadRegisters_iff
  decode_eq_storeDecimal_iff)

/-- Where the registers up to `x` fit into memory at the index, a store of them can be undone by a
load, whatever becomes of the machine in between apart from memory and the index; and a store of
what was loaded leaves memory as it was.  Where three bytes fit, a register is stored as its decimal
digits. -/
theorem registers_survive_in_memory (m : Machine) (x : Register) (store load decimal : Opcode)
    (hstore : store.Fits "FX55" ∧ store.x = x) (hload : load.Fits "FX65" ∧ load.x = x)
    (hdecimal : decimal.Fits "FX33" ∧ decimal.x = x) :
    (m.registers.index.toNat + x.val + 1 ≤ Memory.size →
      (∃ m₁, (InPlace.execute (decode store)).run m = .ok () m₁ ∧
        m₁.registers.index.toNat = m.registers.index.toNat + x.val + 1 ∧
        ∀ m₂ : Machine, m₂.memory = m₁.memory → m₂.registers.index = m.registers.index →
          ∃ m₃, (InPlace.execute (decode load)).run m₂ = .ok () m₃ ∧
            (∀ z ≤ x, m₃.get z = m.get z) ∧ (∀ z, x < z → m₃.get z = m₂.get z) ∧
            m₃.registers.index = m₁.registers.index) ∧
      (∃ m₁, (InPlace.execute (decode load)).run m = .ok () m₁ ∧
        ∀ m₂ : Machine, m₂.memory = m₁.memory → m₂.registers.index = m.registers.index →
          (∀ z ≤ x, m₂.get z = m₁.get z) →
          ∃ m₃, (InPlace.execute (decode store)).run m₂ = .ok () m₃ ∧ m₃.memory = m.memory)) ∧
    (m.registers.index.toNat + 3 ≤ Memory.size →
      ∃ m₁, (InPlace.execute (decode decimal)).run m = .ok () m₁ ∧ m.Digits x m₁) := by
  rw [decode_eq_storeRegisters_iff.mpr hstore, decode_eq_loadRegisters_iff.mpr hload,
    decode_eq_storeDecimal_iff.mpr hdecimal]
  refine ⟨fun hfits => ⟨?_, ?_⟩, fun hfits => ?_⟩
  · obtain ⟨m₁, hexecute, hmemory, hindex⟩ := m.execute_storeRegisters hfits
    refine ⟨m₁, run_execute_of_ok hexecute, hindex, ?_⟩
    intro m₂ hmemory₂ hindex₂
    obtain ⟨m₃, hexecute₃, hrestored, hkept, hindex₃⟩ :=
      load_of_stored hfits (hmemory₂.trans hmemory) hindex₂
    -- both instructions leave the index behind the same bytes
    have hsame : m₃.registers.index = m₁.registers.index :=
      UInt16.toNat_inj.mp (hindex₃.trans hindex.symm)
    exact ⟨m₃, run_execute_of_ok hexecute₃, hrestored, hkept, hsame⟩
  · obtain ⟨m₁, hexecute, hmemory, -, hget⟩ := m.execute_loadRegisters hfits
    refine ⟨m₁, run_execute_of_ok hexecute, ?_⟩
    intro m₂ hmemory₂ hindex₂ hget₂
    have hloaded : ∀ z ≤ x, m₂.get z = m.memory.byte (m.registers.index.toNat + z.val) := by
      intro z hz
      rw [hget₂ z hz, hget z, Memory.getElem?_slice, if_pos (Nat.lt_succ_of_le hz),
        Option.getD_some]
    obtain ⟨m₃, hexecute₃, hmemory₃⟩ :=
      store_of_loaded hfits (hmemory₂.trans hmemory) hindex₂ hloaded
    exact ⟨m₃, run_execute_of_ok hexecute₃, hmemory₃⟩
  · obtain ⟨m₁, hexecute, hmemory, hindex, hget⟩ := m.execute_storeDecimal x hfits
    exact ⟨m₁, run_execute_of_ok hexecute, digits_of_splice hfits hmemory hindex hget⟩

/-- Three registers fit into the last bytes of memory, which are in the display, and come back from
there; and so do three digits. -/
theorem last_bytes_keep_registers :
    let m := ((loaded [0xF2, 0x55] .standard (.ofSeed 1)).put ⟨2, by decide⟩ 0xFE).putIndex 0xFFD
    (∃ m₁ m₃, (InPlace.execute (Instruction.decode 0xF255)).run m = .ok () m₁ ∧
      (InPlace.execute (Instruction.decode 0xF265)).run
          ((m₁.put ⟨2, by decide⟩ 0).putIndex 0xFFD) = .ok () m₃ ∧
        m₃.get ⟨2, by decide⟩ = 0xFE ∧ m₃.registers.index.toNat = 0x1000) ∧
      ∃ m₁, (InPlace.execute (Instruction.decode 0xF233)).run m = .ok () m₁ ∧
        100 * (m₁.memory.byte 0xFFD).toNat + 10 * (m₁.memory.byte 0xFFE).toNat +
          (m₁.memory.byte 0xFFF).toNat = 254 := by
  intro m
  obtain ⟨hregisters, hdigits⟩ := registers_survive_in_memory m ⟨2, by decide⟩
    0xF255 0xF265 0xF233 (by decide) (by decide) (by decide)
  constructor
  · obtain ⟨⟨m₁, hstore, hindex, hback⟩, -⟩ := hregisters (by decide)
    obtain ⟨m₃, hload, hrestored, -, hindex₃⟩ :=
      hback ((m₁.put ⟨2, by decide⟩ 0).putIndex 0xFFD) (memory_putIndex ..)
        ((index_putIndex ..).trans (index_putIndex ..).symm)
    exact ⟨m₁, m₃, hstore, hload, hrestored _ (Nat.le_refl 2), hindex₃ ▸ hindex⟩
  · obtain ⟨m₁, hdecimal, hdigits⟩ := hdigits (by decide)
    exact ⟨m₁, hdecimal, hdigits.value⟩

end Machine

end Chip8
