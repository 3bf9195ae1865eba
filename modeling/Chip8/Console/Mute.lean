import Chip8.Console.Device

/-!
# The silent buzzer

A buzzer that makes no sound and never fails.  It knows whether it would sound and how often it was
told to change that.
-/

namespace Chip8

structure Mute where
  sounding : Bool
  /-- How often the buzzer was started or stopped. -/
  toggles : Nat
deriving DecidableEq

def Mute.fresh : Mute :=
  ⟨false, 0⟩

instance : Buzzer Mute where
  sounding m := m.sounding
  start m := (.ok (), ⟨true, m.toggles + 1⟩)
  stop m := (.ok (), ⟨false, m.toggles + 1⟩)

end Chip8
