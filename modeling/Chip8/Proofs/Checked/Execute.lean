import Chip8.Machine.Execute
import Chip8.Proofs.Checked.Screen
import Chip8.Proofs.Checked.Storage
import Chip8.Proofs.Instruction.Catalogue
import Chip8.Proofs.Machine.Effect
import Mathlib.Tactic.IntervalCases

/-!
# Checked execution

Decoding and execution with every step of the arithmetic checked.  Opcodes are taken apart by shifts
and masks, and a high digit past fifteen would be a panic.  Executing an instruction that was fetched
and decoded does what it does without checks: the fetch bounds the program counter, so a skip does
not overflow it; the address in an opcode has twelve bits, so an indexed jump does not overflow; a
sound stack pointer moves within its region; and the rest is bounded by the sizes of its operands.
-/

namespace Chip8.Checked

/-! ## Decoding -/

/-- A digit of an opcode, which names a register or counts the rows of a sprite. -/
def digit (n : Nat) : Checked (Fin 16) :=
  if h : n < 16 then .ok ⟨n, h⟩ else crash .outOfBounds

def decode (w : Opcode) : Checked Instruction := do
  let x ← digit ((w >>> 8) &&& 0xF).toNat
  let y ← digit ((w >>> 4) &&& 0xF).toNat
  let n ← digit (w &&& 0xF).toNat
  let nnn := w &&& 0x0FFF
  let nn := (w &&& 0xFF).toUInt8
  match (w >>> 12).toNat with
  | 0x0 => return .ofSystem w
  | 0x1 => return .jump nnn
  | 0x2 => return .call nnn
  | 0x3 => return .skipIf (.equalsByte x nn)
  | 0x4 => return .skipIf (.differsFromByte x nn)
  | 0x5 => return .skipIf (.equals x y)
  | 0x6 => return .loadByte x nn
  | 0x7 => return .addByte x nn
  | 0x8 => return .ofArithmetic w
  | 0x9 => return .skipIf (.differs x y)
  | 0xA => return .loadIndex nnn
  | 0xB => return .jumpOffset nnn
  | 0xC => return .random x nn
  | 0xD => return .draw x y n
  | 0xE => return .ofKeys w
  | 0xF => return .ofDevices w
  | _ => crash .unreachable

section

variable (w : Opcode)

theorem digit_eq_ok {n : Nat} {d : Fin 16} (h : n = d.val) : digit n = .ok d := by
  subst h
  exact dif_pos d.isLt

theorem toNat_shift (k : UInt16) : (w >>> k).toNat = w.toNat / 2 ^ (k.toNat % 16) := by
  rw [UInt16.toNat_shiftRight, Nat.shiftRight_eq_div_pow]

theorem toNat_mask {mask : UInt16} {k : Nat} (h : mask.toNat = 2 ^ k - 1) :
    (w &&& mask).toNat = w.toNat % 2 ^ k := by
  rw [UInt16.toNat_and, h, Nat.and_two_pow_sub_one_eq_mod]

theorem mask_eq_nnn : w &&& 0x0FFF = w.nnn := by
  have hmask : (w &&& 0x0FFF).toNat = w.toNat % 2 ^ 12 := toNat_mask w rfl
  rw [← UInt16.ofNat_toNat (x := w &&& 0x0FFF), hmask]
  rfl

theorem mask_eq_nn : (w &&& 0xFF).toUInt8 = w.nn := by
  have hmask : (w &&& 0xFF).toNat = w.toNat % 2 ^ 8 := toNat_mask w rfl
  change UInt8.ofNat (w &&& 0xFF).toNat = w.nn
  rw [hmask]
  rfl

theorem decode_eq : decode w = .ok (Instruction.decode w) := by
  have hmask (v : UInt16) : (v &&& 0xF).toNat = v.toNat % 2 ^ 4 := toNat_mask v rfl
  have hx : digit ((w >>> 8) &&& 0xF).toNat = .ok w.x :=
    digit_eq_ok (by rw [hmask, toNat_shift]; rfl)
  have hy : digit ((w >>> 4) &&& 0xF).toNat = .ok w.y :=
    digit_eq_ok (by rw [hmask, toNat_shift]; rfl)
  have hn : digit (w &&& 0xF).toNat = .ok w.n := digit_eq_ok (hmask w)
  have hhigh : (w >>> 12).toNat = w.family := toNat_shift w 12
  simp only [decode, hx, hy, hn, ok_bind, mask_eq_nnn, mask_eq_nn, hhigh, Instruction.decode]
  -- the high digit is one of sixteen, so the last branch is never taken
  have hfamily := w.family_lt
  generalize w.family = high at hfamily ⊢
  interval_cases high <;> rfl

end

/-! ## Pieces of instructions -/

def holds (m : Machine) : Condition → Checked Bool
  | .equalsByte x nn => return (← get m.registers x) == nn
  | .differsFromByte x nn => return (← get m.registers x) != nn
  | .equals x y => return (← get m.registers x) == (← get m.registers y)
  | .differs x y => return (← get m.registers x) != (← get m.registers y)
  | .keyDown x => do isHeld m.keypad (← get m.registers x)
  | .keyUp x => return !(← isHeld m.keypad (← get m.registers x))

/-- Where to go on after a skip that is taken or not. -/
def skip (m : Machine) (taken : Bool) : Checked UInt16 :=
  if taken then return UInt16.ofNat (← add 16 (m.pc + 2).toNat 2) else return m.pc + 2

def shiftOperand (m : Machine) (x y : Register) : Checked UInt8 :=
  match m.config.shift with
  | .inPlace => get m.registers x
  | .copySecond => get m.registers y

def combine (m : Machine) (operation : Operation) (x y : Register) : Checked Machine := do
  let a ← get m.registers x
  let b ← get m.registers y
  let (result, flag) := operation.apply a b (← shiftOperand m x y)
  let registers ← set m.registers x result
  match flag with
  | none => return { m with registers }
  | some on => return { m with registers := ← set registers .flag (if on then 1 else 0) }

/-- The rows of a sprite, by way of a buffer that holds the longest one. -/
def sprite (m : Machine) (len : Nat) : Checked (List UInt8) := do
  let buffer : List UInt8 := List.replicate 15 0
  let target ← range buffer 0 len
  let rows ← copy target (← read m.memory m.registers.index len)
  range (rows ++ buffer.drop len) 0 len

def drawSprite (m : Machine) (x y : Register) (rows : List UInt8) : Checked Machine := do
  let a ← get m.registers x
  let b ← get m.registers y
  let drawn ← draw (← display m.memory) a b rows
  let registers ← set m.registers .flag (if drawn.collided then 1 else 0)
  return { m with memory := m.memory.setDisplay drawn.bitmap, registers, redraw := true }

def store (m : Machine) (data : List UInt8) : Checked Machine := do
  let memory ← write m.memory m.registers.index data
  let last ← add 64 m.registers.index.toNat data.length
  return { m with memory, redraw := m.redraw || decide (Memory.displayBase < last) }

section

variable (m : Machine) (x y : Register)

theorem holds_eq (condition : Condition) : holds m condition = .ok (m.holds condition) := by
  cases condition <;> simp only [holds, get_eq, isHeld_eq, ok_bind, pure_eq_ok] <;> rfl

theorem skip_eq (h : m.pc.toNat + 2 ≤ Memory.size) (taken : Bool) :
    skip m taken = .ok (m.pc + if taken then 4 else 2) := by
  have hnext := Machine.toNat_pc_add_two h
  change m.pc.toNat + 2 ≤ 4096 at h
  cases taken with
  | false => rfl
  | true =>
    have hfour : UInt16.ofNat (m.pc.toNat + 2 + 2) = m.pc + 4 := by
      rw [← hnext]
      apply UInt16.toNat_inj.mp
      simp only [UInt16.toNat_ofNat', UInt16.toNat_add, UInt16.reduceToNat]
      omega
    simp only [skip, hnext, if_true]
    rw [add_eq_ok (by omega), ok_bind, hfour, pure_eq_ok]

theorem combine_eq (operation : Operation) :
    combine m operation x y = .ok (m.combine operation x y) := by
  have hshift : shiftOperand m x y = .ok (m.shiftOperand x y) := by
    rw [shiftOperand, Machine.shiftOperand]
    cases m.config.shift <;> exact get_eq _ _
  simp only [combine, get_eq, hshift, set_eq, ok_bind, pure_eq_ok]
  cases operation <;> rfl

theorem sprite_eq {len : Nat} (h : len ≤ 15) :
    sprite m len = ofExcept (m.memory.read m.registers.index len) := by
  have hsize : len ≤ Memory.size := Nat.le_trans h (by decide)
  have htarget : range (List.replicate 15 (0 : UInt8)) 0 len = .ok (List.replicate len 0) := by
    rw [range_eq_ok ⟨Nat.zero_le _, by rwa [List.length_replicate]⟩, List.take_replicate,
      Nat.min_eq_left h, List.drop_zero]
  simp only [sprite, htarget, ok_bind, read_eq _ _ hsize]
  cases hread : m.memory.read m.registers.index len with
  | error fault => rfl
  | ok rows =>
    obtain ⟨-, rfl⟩ := Memory.read_eq_ok_iff.mp hread
    rw [ofExcept_ok, ok_bind, copy_eq_ok (by simp), ok_bind, range_eq_ok (by simp)]
    simp

theorem drawSprite_eq {rows : List UInt8} (h : rows.length < 16) :
    drawSprite m x y rows = .ok (m.drawSprite x y rows) := by
  simp only [drawSprite, get_eq, display_eq, draw_eq _ _ _ h, set_eq, ok_bind, pure_eq_ok]
  rfl

theorem store_eq {data : List UInt8} (h : data.length ≤ Memory.size) :
    store m data = ofExcept (m.store data) := by
  have hindex := m.registers.index.toNat_lt
  have hlen : data.length ≤ 4096 := h
  have hlast : m.registers.index.toNat + data.length < 2 ^ 64 := by omega
  simp only [store, write_eq _ _ h, add_eq_ok hlast, ok_bind, pure_eq_ok, Machine.store,
    ofExcept_map]

end

/-! ## Whole instructions -/

/-- Carries out what one instruction says. -/
def execute (m : Machine) : Instruction → Checked Machine
  | .clear => do
    let display ← display m.memory
    return { m with memory := m.memory.setDisplay display.clear, redraw := true }.next
  | .ret => do
    let (target, stack) ← pop m.stack m.memory m.pc
    return { m with stack }.goto target
  | .jump nnn => return m.goto nnn
  | .call nnn => do
    let (stack, memory) ← push m.stack m.memory (m.pc + 2) m.pc
    return { m with stack, memory }.goto nnn
  | .skipIf condition => return m.goto (← skip m (← holds m condition))
  | .loadByte x nn => return { m with registers := ← set m.registers x nn }.next
  | .addByte x nn => do
    let sum := (← get m.registers x) + nn
    return { m with registers := ← set m.registers x sum }.next
  | .combine operation x y => return (← combine m operation x y).next
  | .loadIndex nnn => return (m.putIndex nnn.toNat).next
  | .jumpOffset nnn => do
    let target ← add 16 nnn.toNat (← get m.registers .base).toNat
    return m.goto (UInt16.ofNat target)
  | .random x nn => do
    let registers ← set m.registers x (m.random.byte &&& nn)
    return { m with random := m.random.next, registers }.next
  | .draw x y rows => do
    let rows ← sprite m rows.val
    return (← drawSprite m x y rows).next
  | .loadDelay x => return { m with registers := ← set m.registers x m.timers.delay }.next
  | .waitKey x => return { m with state := .waiting x }.next
  | .setDelay x => do
    let delay ← get m.registers x
    return { m with timers := { m.timers with delay } }.next
  | .setSound x => do
    let sound ← get m.registers x
    return { m with timers := { m.timers with sound } }.next
  | .addIndex x => do
    let sum ← add 32 m.registers.index.toNat (← get m.registers x).toNat
    return (m.putIndex sum).next
  | .loadGlyph x => return (m.putIndex (← glyphAddress (← get m.registers x))).next
  | .storeDecimal x => return (← store m (decimalDigits (← get m.registers x))).next
  | .storeRegisters x => do
    let len ← add 64 x.val 1
    let m' ← store m (← upTo m.registers x)
    return (m'.putIndex (← add 32 m.registers.index.toNat len)).next
  | .loadRegisters x => do
    let len ← add 64 x.val 1
    let data ← read m.memory m.registers.index len
    let registers ← load m.registers x data
    return ({ m with registers }.putIndex (← add 32 m.registers.index.toNat len)).next
  | .unknown opcode =>
    match m.config.unknown with
    | .ignore => do
      let skipped ← count 64 m.skipped
      return { m with skipped }.next
    | .strict => raise (.unknownOpcode opcode m.pc)

section

variable (m : Machine) (x y : Register)

theorem execute_jumpOffset_eq {nnn : UInt16} (h : nnn.toNat < 4096) :
    execute m (.jumpOffset nnn) = ofExcept (m.execute (.jumpOffset nnn)) := by
  have hbase := (m.registers.get .base).toNat_lt
  have htarget : nnn.toNat + (m.registers.get .base).toNat < 2 ^ 16 := by omega
  have hsum : UInt16.ofNat (nnn.toNat + (m.registers.get .base).toNat) =
      nnn + (m.get .base).toUInt16 := by
    apply UInt16.toNat_inj.mp
    simp [Machine.get]
  simp only [execute, get_eq, ok_bind, add_eq_ok htarget, pure_eq_ok, hsum]
  rfl

theorem execute_addIndex_eq : execute m (.addIndex x) = ofExcept (m.execute (.addIndex x)) := by
  have hindex := m.registers.index.toNat_lt
  have hvalue := (m.registers.get x).toNat_lt
  have hsum : m.registers.index.toNat + (m.registers.get x).toNat < 2 ^ 32 := by omega
  simp only [execute, get_eq, ok_bind, add_eq_ok hsum]
  rfl

theorem execute_draw_eq (rows : Fin 16) :
    execute m (.draw x y rows) = ofExcept (m.execute (.draw x y rows)) := by
  rw [execute, sprite_eq m (Nat.le_of_lt_succ rows.isLt), Machine.execute, ofExcept_map]
  cases hread : m.memory.read m.registers.index rows.val with
  | error fault => rfl
  | ok sprite =>
    obtain ⟨-, rfl⟩ := Memory.read_eq_ok_iff.mp hread
    have hlen : (m.memory.slice m.registers.index.toNat rows.val).length < 16 := by simp
    simp only [ofExcept_ok, ok_bind, drawSprite_eq m x y hlen, pure_eq_ok]

theorem execute_storeDecimal_eq :
    execute m (.storeDecimal x) = ofExcept (m.execute (.storeDecimal x)) := by
  have hlen : (decimalDigits (m.get x)).length ≤ Memory.size := Nat.le_of_ble_eq_true rfl
  rw [execute, get_eq, ok_bind, Machine.execute, ofExcept_map]
  exact congrArg (· >>= fun m' => .ok m'.next) (store_eq m hlen)

theorem length_le_size : x.val + 1 ≤ Memory.size :=
  Nat.le_trans x.isLt (by decide)

/-- The index moves past as many bytes as there are registers up to `x` and with it. -/
theorem add_index_eq_ok :
    add 32 m.registers.index.toNat (x.val + 1) = .ok (m.registers.index.toNat + x.val + 1) := by
  have hx := x.isLt
  have hindex := m.registers.index.toNat_lt
  exact add_eq_ok (show m.registers.index.toNat + (x.val + 1) < 2 ^ 32 by omega)

theorem add_one_eq_ok : add 64 x.val 1 = .ok (x.val + 1) :=
  add_eq_ok (Nat.lt_of_lt_of_le (Nat.succ_lt_succ x.isLt) (by decide))

theorem execute_storeRegisters_eq :
    execute m (.storeRegisters x) = ofExcept (m.execute (.storeRegisters x)) := by
  have hlen : (m.registers.upTo x).length ≤ Memory.size :=
    m.registers.length_upTo x ▸ length_le_size x
  simp only [execute, Machine.execute, add_one_eq_ok, upTo_eq, ok_bind, store_eq m hlen,
    add_index_eq_ok, pure_eq_ok, ofExcept_map]

theorem execute_loadRegisters_eq :
    execute m (.loadRegisters x) = ofExcept (m.execute (.loadRegisters x)) := by
  simp only [execute, Machine.execute, add_one_eq_ok, ok_bind, read_eq _ _ (length_le_size x),
    add_index_eq_ok, pure_eq_ok, ofExcept_map]
  cases hread : m.memory.read m.registers.index (x.val + 1) with
  | error fault => rfl
  | ok data =>
    obtain ⟨-, rfl⟩ := Memory.read_eq_ok_iff.mp hread
    simp only [ofExcept_ok, ok_bind, load_eq m.registers x (Memory.length_slice _ _ _)]

end

theorem execute_unknown_eq {m : Machine} {w : Opcode}
    (hfew : ∀ m', m.execute (.unknown w) = .ok m' → m'.skipped < 2 ^ 64) :
    execute m (.unknown w) = ofExcept (m.execute (.unknown w)) := by
  simp only [execute, Machine.execute, Machine.passOver] at hfew ⊢
  cases hpolicy : m.config.unknown with
  | strict => rfl
  | ignore =>
    rw [hpolicy] at hfew
    have hskipped : m.skipped + 1 < 2 ^ 64 := hfew _ rfl
    simp only [count_eq_ok hskipped, ok_bind, pure_eq_ok, ofExcept_ok]

theorem execute_eq {m : Machine} {w : Opcode} (hstack : m.stack.Sound)
    (hpc : m.pc.toNat + 2 ≤ Memory.size)
    (hfew : ∀ m', m.execute (.decode w) = .ok m' → m'.skipped < 2 ^ 64) :
    execute m (.decode w) = ofExcept (m.execute (.decode w)) := by
  cases hdecode : Instruction.decode w with
  | ret =>
    rw [execute, pop_eq _ _ hstack, Machine.execute, ofExcept_map]
    rfl
  | call nnn =>
    rw [execute, push_eq _ _ _ hstack, Machine.execute, ofExcept_map]
    rfl
  | skipIf condition =>
    rw [execute, holds_eq, ok_bind, skip_eq m hpc]
    rfl
  | jumpOffset nnn =>
    -- an address that comes out of an opcode has twelve bits
    obtain ⟨-, rfl⟩ := Instruction.decode_eq_jumpOffset_iff.mp hdecode
    exact execute_jumpOffset_eq m (w.toNat_nnn ▸ Nat.mod_lt _ (by decide))
  | draw x y rows => exact execute_draw_eq m x y rows
  | addIndex x => exact execute_addIndex_eq m x
  | storeDecimal x => exact execute_storeDecimal_eq m x
  | storeRegisters x => exact execute_storeRegisters_eq m x
  | loadRegisters x => exact execute_loadRegisters_eq m x
  | unknown v => exact execute_unknown_eq (hdecode ▸ hfew)
  | loadGlyph x =>
    simp only [execute, get_eq, ok_bind, glyphAddress_eq]
    rfl
  | clear =>
    rw [execute, display_eq, ok_bind]
    rfl
  | combine operation x y =>
    rw [execute, combine_eq, ok_bind]
    rfl
  | jump | loadIndex | waitKey => rfl
  | loadByte | addByte | random | loadDelay | setDelay | setSound =>
    simp only [execute, get_eq, set_eq, ok_bind]
    rfl

/-- The one thing that can go wrong: one opcode more is passed over than can be counted. -/
theorem execute_of_full {m m' : Machine} {i : Instruction} (h : m.execute i = .ok m')
    (hfew : m.skipped < 2 ^ 64) (hfull : ¬ m'.skipped < 2 ^ 64) :
    execute m i = crash .countFull := by
  have hskipped := (Machine.control_execute h).2
  cases i with
  | unknown opcode =>
    rw [hskipped] at hfull
    simp only [Machine.execute, Machine.passOver] at h
    cases hpolicy : m.config.unknown with
    | strict => simp [hpolicy] at h
    | ignore => simp only [execute, hpolicy, count_of_full hfull, crash_bind]
  | _ => exact absurd (hskipped ▸ hfew) hfull

end Chip8.Checked
