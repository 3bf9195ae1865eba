import Chip8.Fault

/-!
# The keypad

Sixteen keys, each held or not, kept in one word with a bit for each key.  A key code is a byte, and
only `0` to `15` are keys: the others are never held, and pressing or releasing one is refused.
-/

namespace Chip8

abbrev Key := Fin 16

namespace Key

def ofCode (code : UInt8) : Except Fault Key :=
  if h : code.toNat < 16 then .ok ⟨code.toNat, h⟩ else .error (.invalidKey code)

/-- The word in which only the key's bit is set. -/
def bit (key : Key) : UInt16 :=
  1 <<< UInt16.ofNat key.val

theorem toBitVec_bit (key : Key) : key.bit.toBitVec = BitVec.twoPow 16 key.val := by
  revert key
  decide

end Key

structure Keypad where
  held : UInt16
deriving DecidableEq

namespace Keypad

def released : Keypad :=
  ⟨0⟩

def set (k : Keypad) (key : Key) (down : Bool) : Keypad :=
  ⟨if down then k.held ||| key.bit else k.held &&& ~~~key.bit⟩

def press (k : Keypad) (code : UInt8) : Except Fault Keypad :=
  (Key.ofCode code).map fun key => k.set key true

def release (k : Keypad) (code : UInt8) : Except Fault Keypad :=
  (Key.ofCode code).map fun key => k.set key false

def isHeld (k : Keypad) (code : UInt8) : Bool :=
  match Key.ofCode code with
  | .ok key => k.held &&& key.bit != 0
  | .error _ => false

theorem and_bit_bne_zero (w : UInt16) (key : Key) :
    (w &&& key.bit != 0) = w.toBitVec.getLsbD key.val := by
  have hzero : w &&& key.bit = 0 ↔ w.toBitVec &&& BitVec.twoPow 16 key.val = 0#16 := by
    rw [← UInt16.toBitVec_inj, UInt16.toBitVec_and, Key.toBitVec_bit]
    rfl
  have hpow : BitVec.twoPow 16 key.val ≠ 0#16 := by
    intro h
    have hbit := congrArg (fun bits => bits.getLsbD key.val) h
    simp at hbit
  rw [Bool.eq_iff_iff, bne_iff_ne, Ne, hzero, BitVec.and_twoPow]
  cases w.toBitVec.getLsbD key.val <;> simp [hpow]

/-- A key is held when its bit is set; a code past the last key has no bit. -/
theorem isHeld_eq_getLsbD (k : Keypad) (code : UInt8) :
    k.isHeld code = k.held.toBitVec.getLsbD code.toNat := by
  by_cases h : code.toNat < 16
  · rw [isHeld, Key.ofCode, dif_pos h]
    exact and_bit_bne_zero ..
  · rw [isHeld, Key.ofCode, dif_neg h, BitVec.getLsbD_of_ge _ _ (Nat.le_of_not_lt h)]

theorem isHeld_released (code : UInt8) : released.isHeld code = false := by
  rw [isHeld_eq_getLsbD]
  exact BitVec.getLsbD_zero

theorem getLsbD_held_set (k : Keypad) (key : Key) (down : Bool) (i : Nat) :
    (k.set key down).held.toBitVec.getLsbD i =
      if key.val = i then down else k.held.toBitVec.getLsbD i := by
  by_cases hi : i < 16
  · cases down with
    | true =>
      rw [set, if_pos rfl, UInt16.toBitVec_or, Key.toBitVec_bit, BitVec.getLsbD_or,
        BitVec.getLsbD_twoPow]
      by_cases h : key.val = i <;> simp [h, hi]
    | false =>
      rw [set, if_neg Bool.false_ne_true, UInt16.toBitVec_and, UInt16.toBitVec_not,
        Key.toBitVec_bit, BitVec.getLsbD_and, BitVec.getLsbD_not, BitVec.getLsbD_twoPow]
      by_cases h : key.val = i <;> simp [h, hi]
  · have hother : key.val ≠ i := by omega
    rw [if_neg hother, BitVec.getLsbD_of_ge _ _ (Nat.le_of_not_lt hi),
      BitVec.getLsbD_of_ge _ _ (Nat.le_of_not_lt hi)]

theorem isHeld_set (k : Keypad) (key : Key) (down : Bool) (code : UInt8) :
    (k.set key down).isHeld code = if key.val = code.toNat then down else k.isHeld code := by
  rw [isHeld_eq_getLsbD, isHeld_eq_getLsbD, getLsbD_held_set]

end Keypad

end Chip8
