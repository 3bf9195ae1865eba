import Chip8.Console.Device
import Chip8.Keypad

/-!
# Keypads and key events

A keypad that heeds key events holds a key exactly if the last event about that key pressed it.  An
event about a code that is not on the pad is refused and changes nothing.
-/

namespace Chip8

namespace KeyEvent

/-- Whether the event presses or releases the key, if it is about this key. -/
def tells (code : UInt8) : KeyEvent → Option Bool
  | .down code' => if code' = code then some true else none
  | .up code' => if code' = code then some false else none
  | .quit => none

/-- What events tell of a key, in order: true for a press, false for a release. -/
def told (code : UInt8) (events : List KeyEvent) : List Bool :=
  events.filterMap (tells code)

/-- The event is about no code that is not on the pad. -/
def OnPad : KeyEvent → Prop
  | .down code | .up code => code.toNat < 16
  | .quit => True

theorem told_append (code : UInt8) (events events' : List KeyEvent) :
    told code (events ++ events') = told code events ++ told code events' :=
  List.filterMap_append

theorem told_cons_of_none {code : UInt8} {e : KeyEvent} (h : e.tells code = none)
    (events : List KeyEvent) : told code (e :: events) = told code events :=
  List.filterMap_cons_none h

theorem told_cons_of_some {code : UInt8} {e : KeyEvent} {down : Bool}
    (h : e.tells code = some down) (events : List KeyEvent) :
    told code (e :: events) = down :: told code events :=
  List.filterMap_cons_some h

/-- Events of the pad tell nothing of a code that is not on it. -/
theorem told_eq_nil {code : UInt8} {events : List KeyEvent} (hcode : 16 ≤ code.toNat)
    (hpad : ∀ e ∈ events, e.OnPad) : told code events = [] := by
  refine List.filterMap_eq_nil_iff.mpr fun e hmem => ?_
  have hon := hpad e hmem
  cases e with
  | quit => rfl
  | down code' | up code' =>
    have hother : code' ≠ code := by
      rintro rfl
      exact Nat.not_lt_of_le hcode hon
    exact if_neg hother

end KeyEvent

namespace Keypad

variable {code code' : UInt8}

/-- The keypad after an event, which it may refuse. -/
def heed (k : Keypad) : KeyEvent → Keypad
  | .down code => (k.press code).toOption.getD k
  | .up code => (k.release code).toOption.getD k
  | .quit => k

def heedAll (k : Keypad) (events : List KeyEvent) : Keypad :=
  events.foldl heed k

theorem isHeld_of_le (k : Keypad) (h : 16 ≤ code.toNat) : k.isHeld code = false := by
  rw [isHeld_eq_getLsbD, BitVec.getLsbD_of_ge _ _ h]

/-- A key that is set is set, the others are as before, and a code that is not on the pad sets
none. -/
theorem isHeld_setCode (k : Keypad) (down : Bool) (hcode : code.toNat < 16) :
    (((Key.ofCode code').map fun key => k.set key down).toOption.getD k).isHeld code =
      if code' = code then down else k.isHeld code := by
  by_cases hpad : code'.toNat < 16
  · rw [Key.ofCode, dif_pos hpad]
    change (k.set ⟨code'.toNat, hpad⟩ down).isHeld code = _
    rw [isHeld_set]
    simp only [UInt8.toNat_inj]
  · have hother : code' ≠ code := fun hsame => hpad (by rw [hsame]; exact hcode)
    rw [Key.ofCode, dif_neg hpad, if_neg hother]
    rfl

theorem isHeld_heed (k : Keypad) (e : KeyEvent) (hcode : code.toNat < 16) :
    (k.heed e).isHeld code = (e.tells code).getD (k.isHeld code) := by
  cases e with
  | quit => rfl
  | down code' =>
    refine (isHeld_setCode k true hcode).trans ?_
    rw [KeyEvent.tells]
    split <;> rfl
  | up code' =>
    refine (isHeld_setCode k false hcode).trans ?_
    rw [KeyEvent.tells]
    split <;> rfl

/-- A keypad is the set of the keys that are held. -/
theorem ext_isHeld {k k' : Keypad}
    (h : ∀ code : UInt8, code.toNat < 16 → k.isHeld code = k'.isHeld code) : k = k' := by
  cases k with | mk w => cases k' with | mk w' =>
  congr 1
  apply UInt16.toBitVec_inj.mp
  apply BitVec.eq_of_getLsbD_eq
  intro i hi
  have hcode : (UInt8.ofNat i).toNat = i := UInt8.toNat_ofNat_of_lt' (Nat.lt_trans hi (by decide))
  have hheld := h (UInt8.ofNat i) (hcode.symm ▸ hi)
  rwa [isHeld_eq_getLsbD, isHeld_eq_getLsbD, hcode] at hheld

theorem heed_heed (k : Keypad) (e : KeyEvent) : (k.heed e).heed e = k.heed e := by
  apply ext_isHeld
  intro code hcode
  rw [isHeld_heed _ e hcode, isHeld_heed _ e hcode]
  cases e.tells code <;> rfl

/-- Events about different keys may come in either order. -/
theorem heed_comm (k : Keypad) {e e' : KeyEvent}
    (h : ∀ code, e.tells code = none ∨ e'.tells code = none) :
    (k.heed e).heed e' = (k.heed e').heed e := by
  apply ext_isHeld
  intro code hcode
  rw [isHeld_heed _ e' hcode, isHeld_heed _ e hcode, isHeld_heed _ e hcode, isHeld_heed _ e' hcode]
  obtain hnone | hnone := h code <;> rw [hnone] <;> rfl

/-- The last event about a key decides whether it is held. -/
theorem isHeld_heedAll (k : Keypad) (events : List KeyEvent) (hcode : code.toNat < 16) :
    (k.heedAll events).isHeld code =
      (KeyEvent.told code events).getLast?.getD (k.isHeld code) := by
  induction events generalizing k with
  | nil => rfl
  | cons e events ih =>
    change ((k.heed e).heedAll events).isHeld code = _
    rw [ih, isHeld_heed k e hcode]
    cases htells : e.tells code with
    | none => rw [KeyEvent.told_cons_of_none htells, Option.getD_none]
    | some down => rw [KeyEvent.told_cons_of_some htells, List.getLast?_cons, Option.getD_some,
        Option.getD_some]

theorem isHeld_heedAll_of_onPad (k : Keypad) {events : List KeyEvent}
    (hpad : ∀ e ∈ events, e.OnPad) (code : UInt8) :
    (k.heedAll events).isHeld code =
      (KeyEvent.told code events).getLast?.getD (k.isHeld code) := by
  by_cases hcode : code.toNat < 16
  · exact k.isHeld_heedAll events hcode
  · have hbeyond : 16 ≤ code.toNat := Nat.le_of_not_lt hcode
    rw [isHeld_of_le _ hbeyond, isHeld_of_le _ hbeyond, KeyEvent.told_eq_nil hbeyond hpad]
    rfl

end Keypad

end Chip8
