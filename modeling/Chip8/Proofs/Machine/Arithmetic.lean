import Chip8.Proofs.Instruction.Catalogue
import Chip8.Proofs.Machine.Effect
import Chip8.Proofs.Machine.Reachable
import Mathlib.Data.Nat.Bitwise

/-!
# Arithmetic

The instructions that compute on registers read both operands before they write, then write the
result and last the flag.  So what they compute is a matter of numbers alone, and it is the same for
every choice of registers: the flag wins where the result goes to its register, and it makes no
difference that two operands are one register or that an operand is overwritten.
-/

namespace Chip8

/-- The opcode computes a result and a flag of the numbers `a` and `b` in its registers and of the
number `s` that it shifts. -/
inductive Opcode.Computes (w : Opcode) (a b s : Nat) : Nat → Nat → Prop where
  | add (fits : w.Fits "8XY4") : w.Computes a b s ((a + b) % 256) (if 255 < a + b then 1 else 0)
  | sub (fits : w.Fits "8XY5") :
      w.Computes a b s (((a : Int) - b) % 256).toNat (if b ≤ a then 1 else 0)
  | subFrom (fits : w.Fits "8XY7") :
      w.Computes a b s (((b : Int) - a) % 256).toNat (if a ≤ b then 1 else 0)
  | shiftRight (fits : w.Fits "8XY6") : w.Computes a b s (s / 2) (s % 2)
  | shiftLeft (fits : w.Fits "8XYE") : w.Computes a b s (2 * s % 256) (s / 128)

/-- The opcode computes a result without a flag. -/
inductive Opcode.Assigns (w : Opcode) (a b : Nat) : Nat → Prop where
  | addByte (fits : w.Fits "7XNN") : w.Assigns a b ((a + w.nn.toNat) % 256)
  | copy (fits : w.Fits "8XY0") : w.Assigns a b b
  | or (fits : w.Fits "8XY1") : w.Assigns a b (a ||| b)
  | and (fits : w.Fits "8XY2") : w.Assigns a b (a &&& b)
  | xor (fits : w.Fits "8XY3") : w.Assigns a b (a ^^^ b)

/-! ## Bytes as numbers -/

theorem toNat_decide (p : Prop) [Decidable p] : (decide p).toNat = if p then 1 else 0 :=
  Bool.cond_decide p 1 0

section Bytes

variable (a b s : UInt8)

theorem toNat_difference : (a - b).toNat = (((a.toNat : Int) - b.toNat) % 256).toNat := by
  have ha := a.toNat_lt
  have hb := b.toNat_lt
  rw [UInt8.toNat_sub]
  omega

theorem toNat_not_borrowed :
    (decide (b ≤ a)).toNat = if b.toNat ≤ a.toNat then 1 else 0 := by
  simp only [UInt8.le_iff_toNat_le, toNat_decide]

theorem toNat_half : (s >>> 1).toNat = s.toNat / 2 := by
  rw [UInt8.toNat_shiftRight]
  exact Nat.shiftRight_eq_div_pow s.toNat 1

theorem toNat_double : (s <<< 1).toNat = 2 * s.toNat % 256 := by
  rw [UInt8.toNat_shiftLeft, Nat.mul_comm]
  exact congrArg (· % 256) (Nat.shiftLeft_eq s.toNat 1)

theorem toNat_bne_zero : (s != 0).toNat = if s.toNat = 0 then 0 else 1 := by
  by_cases hzero : s = 0
  · rw [hzero]
    rfl
  · have hnat : s.toNat ≠ 0 := fun h => hzero (UInt8.toNat_inj.mp h)
    simp [hzero, hnat]

theorem toNat_lowBit : (s &&& 1 != 0).toNat = s.toNat % 2 := by
  have hbit : (s &&& 1).toNat = s.toNat % 2 := (UInt8.toNat_and s 1).trans (Nat.and_one_is_mod _)
  rw [toNat_bne_zero, hbit]
  split <;> omega

theorem toNat_highBit : (s &&& 0x80 != 0).toNat = s.toNat / 128 := by
  have hs := s.toNat_lt
  have hbit : (s &&& 0x80).toNat = (s.toNat.testBit 7).toNat * 128 :=
    (UInt8.toNat_and s 0x80).trans (Nat.and_two_pow s.toNat 7)
  rw [toNat_bne_zero, hbit, Nat.testBit_eq_decide_div_mod_eq]
  by_cases hhigh : s.toNat / 128 % 2 = 1
  · simp [hhigh]
    omega
  · simp [hhigh]
    omega

end Bytes

namespace Machine

variable {m : Machine} {w : Opcode}

/-- The registers of a machine after an instruction that computes a result for register `x` and a
flag.  The flag is what counts where both go to one register. -/
structure Flagged (m : Machine) (x : Register) (result flag : Nat) (r : Registers) : Prop where
  flag : (r.get .flag).toNat = flag
  result : x ≠ .flag → (r.get x).toNat = result
  others : ∀ z, z ≠ x → z ≠ .flag → r.get z = m.get z
  index : r.index = m.registers.index
  pc : r.pc.toNat = m.pc.toNat + 2

/-- The registers of a machine after an instruction that computes a result for register `x` only. -/
structure Assigned (m : Machine) (x : Register) (result : Nat) (r : Registers) : Prop where
  result : (r.get x).toNat = result
  others : ∀ z, z ≠ x → r.get z = m.get z
  index : r.index = m.registers.index
  pc : r.pc.toNat = m.pc.toNat + 2

theorem flagged_put (hfits : m.pc.toNat + 2 ≤ Memory.size) (x : Register) (result : UInt8)
    (on : Bool) :
    m.Flagged x result.toNat on.toNat ((m.put x result).putFlag on).next.registers where
  flag := by
    have hget : ((m.put x result).putFlag on).get .flag = if on then 1 else 0 :=
      get_put_self (m.put x result) .flag _
    change (((m.put x result).putFlag on).get .flag).toNat = on.toNat
    rw [hget]
    cases on <;> rfl
  result hx := by
    have hget : ((m.put x result).putFlag on).get x = result := by
      calc ((m.put x result).putFlag on).get x
          = (m.put x result).get x := (get_put _ .flag x _).trans (if_neg (Ne.symm hx))
        _ = result := get_put_self m x result
    exact congrArg UInt8.toNat hget
  others z hx hflag := by
    calc ((m.put x result).putFlag on).get z
        = (m.put x result).get z := (get_put _ .flag z _).trans (if_neg (Ne.symm hflag))
      _ = m.get z := (get_put m x z result).trans (if_neg (Ne.symm hx))
  index := rfl
  pc := toNat_pc_add_two hfits

theorem assigned_put (hfits : m.pc.toNat + 2 ≤ Memory.size) (x : Register) (result : UInt8) :
    m.Assigned x result.toNat (m.put x result).next.registers where
  result := congrArg UInt8.toNat (get_put_self m x result)
  others z hx := (get_put m x z result).trans (if_neg (Ne.symm hx))
  index := rfl
  pc := toNat_pc_add_two hfits

theorem toNat_shiftOperand (m : Machine) (x y : Register) :
    (m.shiftOperand x y).toNat =
      match m.config.shift with
      | .inPlace => (m.get x).toNat
      | .copySecond => (m.get y).toNat := by
  rw [shiftOperand]
  cases m.config.shift <;> rfl

section Step

variable (hstate : m.state = .running) (hfetch : m.fetch = .ok w)

include hstate hfetch

theorem step_of_combine {operation : Operation} (hfits : w.Fits operation.pattern) :
    m.step = (.ok (), (m.combine operation w.x w.y).next) := by
  have hdecode : Instruction.decode w = .combine operation w.x w.y :=
    Instruction.decode_eq_combine_iff.mpr ⟨hfits, rfl, rfl⟩
  apply step_of_cycle_ok hstate
  rw [cycle_of_fetch hfetch, hdecode, execute]

theorem step_of_flagged (operation : Operation) (hfits : w.Fits operation.pattern)
    {result : UInt8} {on : Bool}
    (happly : operation.apply (m.get w.x) (m.get w.y) (m.shiftOperand w.x w.y) =
      (result, some on)) :
    ∃ registers, m.step = (.ok (), { m with registers }) ∧
      m.Flagged w.x result.toNat on.toNat registers := by
  have hcombine : m.combine operation w.x w.y = (m.put w.x result).putFlag on := by
    rw [combine, happly]
  refine ⟨((m.put w.x result).putFlag on).next.registers, ?_, ?_⟩
  · rw [step_of_combine hstate hfetch hfits, hcombine]
    rfl
  · exact flagged_put (fetch_eq_ok_iff.mp hfetch).1 w.x result on

theorem step_of_assigned (operation : Operation) (hfits : w.Fits operation.pattern)
    {result : UInt8}
    (happly : operation.apply (m.get w.x) (m.get w.y) (m.shiftOperand w.x w.y) =
      (result, none)) :
    ∃ registers, m.step = (.ok (), { m with registers }) ∧
      m.Assigned w.x result.toNat registers := by
  have hcombine : m.combine operation w.x w.y = m.put w.x result := by
    rw [combine, happly]
  refine ⟨(m.put w.x result).next.registers, ?_, ?_⟩
  · rw [step_of_combine hstate hfetch hfits, hcombine]
    rfl
  · exact assigned_put (fetch_eq_ok_iff.mp hfetch).1 w.x result

theorem step_of_addByte (hfits : w.Fits "7XNN") :
    ∃ registers, m.step = (.ok (), { m with registers }) ∧
      m.Assigned w.x (m.get w.x + w.nn).toNat registers := by
  have hdecode : Instruction.decode w = .addByte w.x w.nn :=
    Instruction.decode_eq_addByte_iff.mpr ⟨hfits, rfl, rfl⟩
  refine ⟨(m.put w.x (m.get w.x + w.nn)).next.registers, ?_, ?_⟩
  · apply step_of_cycle_ok hstate
    rw [cycle_of_fetch hfetch, hdecode, execute]
    rfl
  · exact assigned_put (fetch_eq_ok_iff.mp hfetch).1 w.x _

end Step

/-- In a machine that runs, an arithmetic opcode computes what its numbers say, whichever registers
they are in, and changes nothing besides its result, its flag and the program counter. -/
theorem arithmetic_exact (hstate : m.state = .running) (hfetch : m.fetch = .ok w) :
    let a := (m.get w.x).toNat
    let b := (m.get w.y).toNat
    let s := match m.config.shift with
      | .inPlace => a
      | .copySecond => b
    (∀ result flag, w.Computes a b s result flag →
      ∃ registers, m.step = (.ok (), { m with registers }) ∧
        m.Flagged w.x result flag registers) ∧
    ∀ result, w.Assigns a b result →
      ∃ registers, m.step = (.ok (), { m with registers }) ∧
        m.Assigned w.x result registers := by
  intro a b s
  have hs : (m.shiftOperand w.x w.y).toNat = s := m.toNat_shiftOperand w.x w.y
  refine ⟨fun result flag hcomputes => ?_, fun result hassigns => ?_⟩
  · cases hcomputes with
    | add fits =>
      have hstep := step_of_flagged hstate hfetch .add fits rfl
      rwa [UInt8.toNat_add, toNat_decide] at hstep
    | sub fits =>
      have hstep := step_of_flagged hstate hfetch .sub fits rfl
      rwa [toNat_difference, toNat_not_borrowed] at hstep
    | subFrom fits =>
      have hstep := step_of_flagged hstate hfetch .subFrom fits rfl
      rwa [toNat_difference, toNat_not_borrowed] at hstep
    | shiftRight fits =>
      have hstep := step_of_flagged hstate hfetch .shiftRight fits rfl
      rwa [toNat_half, toNat_lowBit, hs] at hstep
    | shiftLeft fits =>
      have hstep := step_of_flagged hstate hfetch .shiftLeft fits rfl
      rwa [toNat_double, toNat_highBit, hs] at hstep
  · cases hassigns with
    | addByte fits =>
      have hstep := step_of_addByte hstate hfetch fits
      rwa [UInt8.toNat_add] at hstep
    | copy fits => exact step_of_assigned hstate hfetch .copy fits rfl
    | or fits =>
      have hstep := step_of_assigned hstate hfetch .or fits rfl
      rwa [UInt8.toNat_or] at hstep
    | and fits =>
      have hstep := step_of_assigned hstate hfetch .and fits rfl
      rwa [UInt8.toNat_and] at hstep
    | xor fits =>
      have hstep := step_of_assigned hstate hfetch .xor fits rfl
      rwa [UInt8.toNat_xor] at hstep

/-- The sum of the flag register with itself leaves the carry there; and a shift of the flag
register into another halves it, though its lowest bit goes over it. -/
theorem carry_wins_over_sum :
    let m := (loaded [0x8F, 0xF4] .standard (.ofSeed 1)).put .flag 0xFF
    let m' := (loaded [0x83, 0xF6] { shift := .copySecond } (.ofSeed 1)).put .flag 0x81
    (∃ registers, m.step = (.ok (), { m with registers }) ∧ (registers.get .flag).toNat = 1) ∧
      ∃ registers, m'.step = (.ok (), { m' with registers }) ∧
        (registers.get ⟨3, by decide⟩).toNat = 0x40 ∧ (registers.get .flag).toNat = 1 := by
  intro m m'
  have hfetch : m.fetch = .ok 0x8FF4 := fetch_eq_ok_iff.mpr (by decide +kernel)
  have hfetch' : m'.fetch = .ok 0x83F6 := fetch_eq_ok_iff.mpr (by decide +kernel)
  have hx : (m.get (Opcode.x 0x8FF4)).toNat = 0xFF := by decide
  have hy : (m.get (Opcode.y 0x8FF4)).toNat = 0xFF := by decide
  have hx' : Opcode.x 0x83F6 = ⟨3, by decide⟩ := by decide
  have hy' : (m'.get (Opcode.y 0x83F6)).toNat = 0x81 := by decide
  have hsecond : m'.config.shift = .copySecond := rfl
  obtain ⟨hsum, -⟩ := arithmetic_exact rfl hfetch
  obtain ⟨hshift, -⟩ := arithmetic_exact rfl hfetch'
  rw [hx, hy] at hsum
  rw [hsecond, hx', hy'] at hshift
  dsimp only at hshift
  obtain ⟨registers, hstep, hregisters⟩ := hsum _ _ (.add (by decide))
  obtain ⟨registers', hstep', hregisters'⟩ := hshift _ _ (.shiftRight (by decide))
  exact ⟨⟨registers, hstep, hregisters.flag⟩, registers', hstep', hregisters'.result (by decide),
    hregisters'.flag⟩

end Machine

end Chip8
