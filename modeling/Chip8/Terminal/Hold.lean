/-!
# Held keys

A terminal reports presses, and repeats them, but never a release.  So a key counts as held until it
has not been pressed for a while.  Times are numbers of milliseconds on a clock that may run
backwards; a press that lies ahead of the clock has age zero.
-/

namespace Chip8

structure KeyHold where
  /-- How long a press lasts. -/
  duration : Nat
  /-- When each held key was last pressed. -/
  lastPress : Vector (Option Nat) 256
deriving DecidableEq

namespace KeyHold

def idle (duration : Nat) : KeyHold :=
  ⟨duration, Vector.replicate 256 none⟩

def pressedAt (h : KeyHold) (key : UInt8) : Option Nat :=
  getElem h.lastPress key.toNat key.toNat_lt

def isHeld (h : KeyHold) (key : UInt8) : Bool :=
  (h.pressedAt key).isSome

/-- Tells whether the press begins a new hold. -/
def press (h : KeyHold) (key : UInt8) (now : Nat) : Bool × KeyHold :=
  (!h.isHeld key, { h with lastPress := h.lastPress.set key.toNat (some now) key.toNat_lt })

def isDue (duration now : Nat) : Option Nat → Bool
  | some pressed => decide (duration ≤ now - pressed)
  | none => false

def codes : List UInt8 :=
  (List.range 256).map UInt8.ofNat

/-- The keys whose hold has run out, lowest first; they are held no longer. -/
def expire (h : KeyHold) (now : Nat) : List UInt8 × KeyHold :=
  (codes.filter fun key => isDue h.duration now (h.pressedAt key),
    { h with
      lastPress := h.lastPress.map fun pressed =>
        if isDue h.duration now pressed then none else pressed })

theorem pressedAt_press (h : KeyHold) (key key' : UInt8) (now : Nat) :
    (h.press key now).2.pressedAt key' = if key = key' then some now else h.pressedAt key' := by
  by_cases hk : key = key'
  · subst hk
    simp [press, pressedAt]
  · have : key.toNat ≠ key'.toNat := fun e => hk (UInt8.toNat_inj.mp e)
    simp [press, pressedAt, hk, this]

theorem pressedAt_expire (h : KeyHold) (key : UInt8) (now : Nat) :
    (h.expire now).2.pressedAt key =
      if isDue h.duration now (h.pressedAt key) then none else h.pressedAt key := by
  simp only [expire, pressedAt, Vector.getElem_map]
  rfl

theorem mem_codes (key : UInt8) : key ∈ codes := by
  simp only [codes, List.mem_map, List.mem_range]
  exact ⟨key.toNat, key.toNat_lt, by simp⟩

theorem mem_expire_iff (h : KeyHold) (key : UInt8) (now : Nat) :
    key ∈ (h.expire now).1 ↔ isDue h.duration now (h.pressedAt key) = true := by
  simp [expire, mem_codes]

end KeyHold

end Chip8
