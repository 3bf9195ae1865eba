/-!
# Timers

The delay and the sound timer count down on a clock of their own and stop at zero.  The tone sounds
for as long as the sound timer runs.
-/

namespace Chip8

structure Timers where
  delay : UInt8
  sound : UInt8
deriving DecidableEq, Repr

namespace Timers

def stopped : Timers :=
  ⟨0, 0⟩

def countDown (n : UInt8) : UInt8 :=
  if n = 0 then 0 else n - 1

def tick (t : Timers) : Timers :=
  ⟨countDown t.delay, countDown t.sound⟩

def toneOn (t : Timers) : Bool :=
  t.sound != 0

theorem toNat_countDown (n : UInt8) : (countDown n).toNat = n.toNat - 1 := by
  unfold countDown
  split
  · next h => simp [h]
  · next h =>
    have hpos : 1 ≤ n.toNat := by
      have : n.toNat ≠ 0 := fun h0 => h (UInt8.toNat_inj.mp h0)
      omega
    exact UInt8.toNat_sub_of_le n 1 (UInt8.le_iff_toNat_le.mpr hpos)

end Timers

end Chip8
