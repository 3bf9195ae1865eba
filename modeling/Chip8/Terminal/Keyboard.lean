import Chip8.Terminal.Hold
import Chip8.Terminal.Keystroke

/-!
# The terminal as a keyboard

A look at the keyboard takes in all that was typed, also what comes after a request to quit.  A press
of a key that is still held is no event.  The releases of the keys whose hold has run out follow at
the end, lowest key first.
-/

namespace Chip8

structure TerminalKeyboard where
  /-- Typed and not yet looked at. -/
  typed : List Keystroke
  hold : KeyHold
  now : Nat
deriving DecidableEq

namespace TerminalKeyboard

def idle (duration : Nat) : TerminalKeyboard :=
  ⟨[], .idle duration, 0⟩

def type (k : TerminalKeyboard) (strokes : List Keystroke) : TerminalKeyboard :=
  { k with typed := k.typed ++ strokes }

structure Heard where
  events : List KeyEvent
  unmapped : List Char
  hold : KeyHold

def hear (now : Nat) (hold : KeyHold) : List Keystroke → Heard
  | [] => ⟨[], [], hold⟩
  | stroke :: rest =>
    match stroke.meaning with
    | .nothing => hear now hold rest
    | .unmapped c =>
      let later := hear now hold rest
      { later with unmapped := c :: later.unmapped }
    | .event (.down key) =>
      let (begins, hold) := hold.press key now
      let later := hear now hold rest
      if begins then { later with events := .down key :: later.events } else later
    | .event e =>
      let later := hear now hold rest
      { later with events := e :: later.events }

def read (k : TerminalKeyboard) : Reading TerminalKeyboard :=
  let heard := hear k.now k.hold k.typed
  let (released, hold) := heard.hold.expire k.now
  ⟨.ok (heard.events ++ released.map .up), heard.unmapped, { k with typed := [], hold }⟩

instance : Keyboard TerminalKeyboard where
  read := read

end TerminalKeyboard

end Chip8
