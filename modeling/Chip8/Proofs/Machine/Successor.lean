import Chip8.Proofs.Keypad
import Chip8.Proofs.Machine.ProgramCounter

/-!
# Where an opcode leads

After an instruction the program counter is at the next one, past the next one, at an address that
the opcode names or adds up, or at the address on top of the stack; and the opcode alone tells
which.  Addresses are numbers here, and no step wraps them around.  The skips come in pairs:
whatever their operands are, one of the two skips and the other does not.
-/

namespace Chip8

namespace Machine

/-- The opcode is a skip and the machine fulfils its condition. -/
inductive Skips (m : Machine) (w : Opcode) : Prop where
  | equalsByte (fits : w.Fits "3XNN") (equal : m.get w.x = w.nn)
  | differsFromByte (fits : w.Fits "4XNN") (different : m.get w.x ≠ w.nn)
  | equals (fits : w.Fits "5XY?") (equal : m.get w.x = m.get w.y)
  | differs (fits : w.Fits "9XY?") (different : m.get w.x ≠ m.get w.y)
  | keyDown (fits : w.Fits "EX9E") (held : m.isHeld (m.get w.x) = true)
  | keyUp (fits : w.Fits "EXA1") (free : m.isHeld (m.get w.x) = false)

/-- The instruction is a skip that leaves out the next one. -/
def passes (m : Machine) : Instruction → Bool
  | .skipIf condition => m.holds condition
  | _ => false

/-- Two opcodes are a pair of skips, and the two machines have the same operands for them. -/
inductive Opposed (m₁ : Machine) (w₁ : Opcode) (m₂ : Machine) (w₂ : Opcode) : Prop where
  | byte (fits₁ : w₁.Fits "3XNN") (fits₂ : w₂.Fits "4XNN") (x : m₁.get w₁.x = m₂.get w₂.x)
      (nn : w₁.nn = w₂.nn)
  | registers (fits₁ : w₁.Fits "5XY?") (fits₂ : w₂.Fits "9XY?") (x : m₁.get w₁.x = m₂.get w₂.x)
      (y : m₁.get w₁.y = m₂.get w₂.y)
  | key (fits₁ : w₁.Fits "EX9E") (fits₂ : w₂.Fits "EXA1") (x : m₁.get w₁.x = m₂.get w₂.x)
      (keypad : m₁.keypad = m₂.keypad)

end Machine

namespace Instruction

/-- The instruction does nothing but choose where to go on. -/
def onlyMoves : Instruction → Bool
  | .jump _ | .jumpOffset _ | .skipIf _ => true
  | _ => false

theorem onlyMoves_decode_iff {w : Opcode} :
    (decode w).onlyMoves = true ↔
      ∃ p ∈ ["1NNN", "BNNN", "3XNN", "4XNN", "5XY?", "9XY?", "EX9E", "EXA1"], w.Fits p := by
  apply decode_iff_of_rows
  · simp [catalogue, onlyMoves]
  · exact fun _ => rfl
  · decide

end Instruction

namespace Machine

variable {m m' : Machine} {w : Opcode}

open Instruction (decode decode_eq_skipIf_iff)

theorem execute_onlyMoves {i : Instruction} (honly : i.onlyMoves = true)
    (h : m.execute i = .ok m') : m' = m.goto m'.pc := by
  cases i with
  | jump | jumpOffset | skipIf =>
    obtain rfl := Except.ok.inj h
    rfl
  | _ => cases honly

theorem skips_iff :
    m.Skips w ↔ ∃ condition, decode w = .skipIf condition ∧ m.holds condition = true := by
  constructor
  · intro hskips
    cases hskips with
    | equalsByte fits equal =>
      exact ⟨.equalsByte w.x w.nn, decode_eq_skipIf_iff.mpr ⟨fits, rfl⟩, beq_iff_eq.mpr equal⟩
    | differsFromByte fits different =>
      exact ⟨.differsFromByte w.x w.nn, decode_eq_skipIf_iff.mpr ⟨fits, rfl⟩,
        bne_iff_ne.mpr different⟩
    | equals fits equal =>
      exact ⟨.equals w.x w.y, decode_eq_skipIf_iff.mpr ⟨fits, rfl⟩, beq_iff_eq.mpr equal⟩
    | differs fits different =>
      exact ⟨.differs w.x w.y, decode_eq_skipIf_iff.mpr ⟨fits, rfl⟩, bne_iff_ne.mpr different⟩
    | keyDown fits held =>
      exact ⟨.keyDown w.x, decode_eq_skipIf_iff.mpr ⟨fits, rfl⟩, held⟩
    | keyUp fits free =>
      exact ⟨.keyUp w.x, decode_eq_skipIf_iff.mpr ⟨fits, rfl⟩, congrArg not free⟩
  · rintro ⟨condition, hdecode, hholds⟩
    obtain ⟨fits, hoperands⟩ := decode_eq_skipIf_iff.mp hdecode
    rw [← hoperands] at hholds
    cases condition with
    | equalsByte => exact .equalsByte fits (beq_iff_eq.mp hholds)
    | differsFromByte => exact .differsFromByte fits (bne_iff_ne.mp hholds)
    | equals => exact .equals fits (beq_iff_eq.mp hholds)
    | differs => exact .differs fits (bne_iff_ne.mp hholds)
    | keyDown => exact .keyDown fits hholds
    | keyUp => exact .keyUp fits ((Bool.not_eq_true' _).mp hholds)

theorem skips_iff_passes : m.Skips w ↔ m.passes (decode w) = true := by
  rw [skips_iff]
  cases decode w <;> simp [passes]

instance (m : Machine) (w : Opcode) : Decidable (m.Skips w) :=
  decidable_of_iff (m.passes (decode w) = true) skips_iff_passes.symm

/-! ## The address -/

/-- Where the machine goes from an opcode, as a number. -/
def destination (m : Machine) (w : Opcode) : Nat :=
  if w.Fits "1NNN" ∨ w.Fits "2NNN" then w.nnn.toNat
  else if w.Fits "BNNN" then w.nnn.toNat + (m.get .base).toNat
  else if w.Fits "00EE" then
    -- the newest return address lies above the free slot
    256 * (m.memory.byte (m.stack.pointer.toNat + 2)).toNat +
      (m.memory.byte (m.stack.pointer.toNat + 3)).toNat
  else if m.Skips w then m.pc.toNat + 4
  else m.pc.toNat + 2

/-- A return that succeeds finds the pointer below the top slot, so the slot above it has the next
address. -/
theorem toNat_successor_ret (h : m.execute .ret = .ok m') :
    (m.successor .ret).toNat =
      256 * (m.memory.byte (m.stack.pointer.toNat + 2)).toNat +
        (m.memory.byte (m.stack.pointer.toNat + 3)).toNat := by
  obtain ⟨result, hpop, -⟩ := map_eq_ok_iff.mp h
  have hbelow : m.stack.pointer.toNat < 0x1FE := by
    rw [CallStack.pop] at hpop
    split at hpop
    · cases hpop
    · next hempty => exact Nat.lt_of_not_le hempty
  have hslot : (m.stack.pointer + 2).toNat = m.stack.pointer.toNat + 2 := by
    simp only [UInt16.toNat_add, UInt16.reduceToNat]
    omega
  change (m.memory.wordAt (m.stack.pointer + 2).toNat).toNat = _
  rw [hslot, Memory.toNat_wordAt]

theorem toNat_nnn_add_base (m : Machine) (w : Opcode) :
    (w.nnn + (m.get .base).toUInt16).toNat = w.nnn.toNat + (m.get .base).toNat := by
  have hbase := (m.get .base).toNat_lt
  have hnnn := w.toNat_nnn_lt
  rw [UInt16.toNat_add, UInt8.toNat_toUInt16]
  omega

theorem toNat_successor_skipIf (hfits : m.pc.toNat + 2 ≤ Memory.size) (condition : Condition) :
    (m.successor (.skipIf condition)).toNat =
      m.pc.toNat + if m.holds condition then 4 else 2 := by
  change (m.pc + if m.holds condition then 4 else 2).toNat = _
  split
  · exact toNat_pc_add_four hfits
  · exact toNat_pc_add_two hfits

theorem fits_jump_iff : w.Fits "1NNN" ↔ decode w = .jump w.nnn := by
  simp [Instruction.decode_eq_jump_iff]

theorem fits_call_iff : w.Fits "2NNN" ↔ decode w = .call w.nnn := by
  simp [Instruction.decode_eq_call_iff]

theorem fits_jumpOffset_iff : w.Fits "BNNN" ↔ decode w = .jumpOffset w.nnn := by
  simp [Instruction.decode_eq_jumpOffset_iff]

theorem toNat_successor (hfits : m.pc.toNat + 2 ≤ Memory.size)
    (h : m.execute (decode w) = .ok m') : (m.successor (decode w)).toNat = m.destination w := by
  -- every case of `destination` but the skip says how the opcode decodes
  simp only [destination, fits_jump_iff, fits_call_iff, fits_jumpOffset_iff,
    ← Instruction.decode_eq_ret_iff]
  cases hdecode : decode w with
  | jump nnn =>
    obtain ⟨-, rfl⟩ := Instruction.decode_eq_jump_iff.mp hdecode
    exact (if_pos (.inl rfl)).symm
  | call nnn =>
    obtain ⟨-, rfl⟩ := Instruction.decode_eq_call_iff.mp hdecode
    exact (if_pos (.inr rfl)).symm
  | jumpOffset nnn =>
    obtain ⟨-, rfl⟩ := Instruction.decode_eq_jumpOffset_iff.mp hdecode
    rw [if_neg (by simp), if_pos rfl]
    exact toNat_nnn_add_base m w
  | ret =>
    rw [hdecode] at h
    simpa using toNat_successor_ret h
  | skipIf condition =>
    rw [toNat_successor_skipIf hfits]
    have hskips : m.Skips w ↔ m.holds condition = true := by
      rw [skips_iff_passes, hdecode]
      rfl
    simp only [hskips, reduceCtorEq, or_self, ↓reduceIte]
    split <;> rfl
  | _ =>
    have hskips : ¬ m.Skips w := by
      rw [skips_iff_passes, hdecode]
      exact Bool.false_ne_true
    change (m.pc + 2).toNat = _
    simp only [hskips, reduceCtorEq, or_self, ↓reduceIte]
    exact toNat_pc_add_two hfits

/-! ## The pairs of skips -/

section Pairs

variable {m₁ m₂ : Machine} {w₁ w₂ : Opcode}

/-- A skip always succeeds, and goes on by four or by two. -/
theorem step_of_skipIf {condition : Condition} (hstate : m.state = .running)
    (hfetch : m.fetch = .ok w) (hdecode : decode w = .skipIf condition) :
    ∃ m', m.step = (.ok (), m') ∧
      m'.pc.toNat = m.pc.toNat + if m.holds condition then 4 else 2 := by
  refine ⟨m.goto (m.successor (.skipIf condition)), ?_, ?_⟩
  · apply step_of_cycle_ok hstate
    rw [cycle_of_fetch hfetch, hdecode]
    rfl
  · exact toNat_successor_skipIf (fetch_eq_ok_iff.mp hfetch).1 condition

theorem Opposed.conditions (h : Opposed m₁ w₁ m₂ w₂) :
    ∃ c₁ c₂, decode w₁ = .skipIf c₁ ∧ decode w₂ = .skipIf c₂ ∧ m₁.holds c₁ = !m₂.holds c₂ := by
  cases h with
  | byte fits₁ fits₂ x nn =>
    refine ⟨.equalsByte w₁.x w₁.nn, .differsFromByte w₂.x w₂.nn,
      decode_eq_skipIf_iff.mpr ⟨fits₁, rfl⟩, decode_eq_skipIf_iff.mpr ⟨fits₂, rfl⟩, ?_⟩
    rw [holds, holds, x, nn, bne, Bool.not_not]
  | registers fits₁ fits₂ x y =>
    refine ⟨.equals w₁.x w₁.y, .differs w₂.x w₂.y,
      decode_eq_skipIf_iff.mpr ⟨fits₁, rfl⟩, decode_eq_skipIf_iff.mpr ⟨fits₂, rfl⟩, ?_⟩
    rw [holds, holds, x, y, bne, Bool.not_not]
  | key fits₁ fits₂ x keypad =>
    refine ⟨.keyDown w₁.x, .keyUp w₂.x,
      decode_eq_skipIf_iff.mpr ⟨fits₁, rfl⟩, decode_eq_skipIf_iff.mpr ⟨fits₂, rfl⟩, ?_⟩
    rw [holds, holds, isHeld, isHeld, x, keypad, Bool.not_not]

theorem Opposed.one_skips (h : Opposed m₁ w₁ m₂ w₂) (hstate₁ : m₁.state = .running)
    (hfetch₁ : m₁.fetch = .ok w₁) (hstate₂ : m₂.state = .running)
    (hfetch₂ : m₂.fetch = .ok w₂) :
    ∃ m₁' m₂', m₁.step = (.ok (), m₁') ∧ m₂.step = (.ok (), m₂') ∧
      (m₁'.pc.toNat = m₁.pc.toNat + 4 ∧ m₂'.pc.toNat = m₂.pc.toNat + 2 ∨
        m₁'.pc.toNat = m₁.pc.toNat + 2 ∧ m₂'.pc.toNat = m₂.pc.toNat + 4) := by
  obtain ⟨c₁, c₂, hdecode₁, hdecode₂, hopposite⟩ := h.conditions
  obtain ⟨m₁', hstep₁, hpc₁⟩ := step_of_skipIf hstate₁ hfetch₁ hdecode₁
  obtain ⟨m₂', hstep₂, hpc₂⟩ := step_of_skipIf hstate₂ hfetch₂ hdecode₂
  refine ⟨m₁', m₂', hstep₁, hstep₂, ?_⟩
  rw [hpc₁, hpc₂, hopposite]
  cases m₂.holds c₂ with
  | false => exact .inl ⟨rfl, rfl⟩
  | true => exact .inr ⟨rfl, rfl⟩

end Pairs

/-- A step that succeeds leads to the destination of its opcode, which is a number that no address
wraps around, and no key above 15 is held on the way.  A jump or a skip changes nothing else.  And
where two machines have the same operands for a pair of skips, one of them skips and the other
goes on. -/
theorem pc_step_eq_destination (hstate : m.state = .running) (hfetch : m.fetch = .ok w)
    (hstep : m.step = (.ok (), m')) :
    m'.pc.toNat = m.destination w ∧
      (16 ≤ (m.get w.x).toNat → m.isHeld (m.get w.x) = false) ∧
      ((∃ p ∈ ["1NNN", "BNNN", "3XNN", "4XNN", "5XY?", "9XY?", "EX9E", "EXA1"], w.Fits p) →
        m' = m.goto m'.pc) ∧
      ∀ m₂ w₂, m₂.state = .running → m₂.fetch = .ok w₂ → Opposed m w m₂ w₂ →
        ∃ m₂', m₂.step = (.ok (), m₂') ∧
          (m'.pc.toNat = m.pc.toNat + 4 ∧ m₂'.pc.toNat = m₂.pc.toNat + 2 ∨
            m'.pc.toNat = m.pc.toNat + 2 ∧ m₂'.pc.toNat = m₂.pc.toNat + 4) := by
  have hexecute := execute_of_step hstate hfetch hstep
  refine ⟨?_, m.keypad.isHeld_of_le, ?_, ?_⟩
  · rw [pc_execute hexecute]
    exact toNat_successor (fetch_eq_ok_iff.mp hfetch).1 hexecute
  · intro hfits
    exact execute_onlyMoves (Instruction.onlyMoves_decode_iff.mpr hfits) hexecute
  · intro m₂ w₂ hstate₂ hfetch₂ hopposed
    obtain ⟨_, m₂', hstep', hstep₂, hone⟩ := hopposed.one_skips hstate hfetch hstate₂ hfetch₂
    -- the machine takes one step only, so this is the step of the pair
    obtain rfl := (Prod.mk.inj (hstep.symm.trans hstep')).2
    exact ⟨m₂', hstep₂, hone⟩

/-- No register can name the key 31: the skip on its being down goes on, the one on its being up
skips. -/
theorem absent_key_is_up :
    let m := (loaded [0xE0, 0x9E] .standard (.ofSeed 1)).put .base 0x1F
    let m₂ := (loaded [0xE0, 0xA1] .standard (.ofSeed 1)).put .base 0x1F
    ∃ m' m₂', m.step = (.ok (), m') ∧ m' = m.goto m'.pc ∧ m'.pc.toNat = 0x202 ∧
      m₂.step = (.ok (), m₂') ∧ m₂'.pc.toNat = 0x204 := by
  intro m m₂
  have hfetch : m.fetch = .ok 0xE09E := fetch_eq_ok_iff.mpr (by decide +kernel)
  have hfetch₂ : m₂.fetch = .ok 0xE0A1 := fetch_eq_ok_iff.mpr (by decide +kernel)
  have hdecode : decode 0xE09E = .skipIf (.keyDown .base) :=
    decode_eq_skipIf_iff.mpr (by decide)
  obtain ⟨m', hstep, -⟩ := step_of_skipIf rfl hfetch hdecode
  obtain ⟨hpc, -, hmoves, hpair⟩ := pc_step_eq_destination rfl hfetch hstep
  have hdestination : m.destination 0xE09E = 0x202 := by decide +kernel
  rw [hdestination] at hpc
  have hkeypad : m.keypad = m₂.keypad :=
    calc m.keypad = .released := rfl
      _ = m₂.keypad := rfl
  have hopposed : Opposed m 0xE09E m₂ 0xE0A1 := .key (by decide) (by decide) (by decide) hkeypad
  obtain ⟨m₂', hstep₂, hone⟩ := hpair m₂ 0xE0A1 rfl hfetch₂ hopposed
  have hbase : m.pc.toNat = 0x200 := rfl
  have hbase₂ : m₂.pc.toNat = 0x200 := rfl
  exact ⟨m', m₂', hstep, hmoves (by decide), hpc, hstep₂, by omega⟩

end Machine

end Chip8
