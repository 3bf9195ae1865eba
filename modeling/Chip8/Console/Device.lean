import Chip8.Picture

/-!
# Devices

What a console needs of the things it is connected to.  A device may fail, and says why; what a
failing call does to the device is the device's own affair.
-/

namespace Chip8

inductive KeyEvent where
  | down (code : UInt8)
  | up (code : UInt8)
  | quit
deriving DecidableEq, Repr

/-- What a look at a keyboard brings. -/
structure Reading (κ : Type) where
  /-- Everything that happened since the last look, oldest first. -/
  events : Except String (List KeyEvent)
  /-- Characters that were typed and mean nothing. -/
  unmapped : List Char
  keyboard : κ

class Keyboard (κ : Type) where
  read : κ → Reading κ

class Display (δ : Type) where
  draw : δ → Picture → Except String Unit × δ

class Buzzer (β : Type) where
  sounding : β → Bool
  start : β → Except String Unit × β
  stop : β → Except String Unit × β

/-- Touches the buzzer only if it is not yet as wanted. -/
def Buzzer.follow {β : Type} [Buzzer β] (b : β) (on : Bool) : Except String Unit × β :=
  if Buzzer.sounding b = on then (.ok (), b)
  else if on then Buzzer.start b
  else Buzzer.stop b

end Chip8
