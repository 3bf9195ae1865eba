import Chip8.Console.Basic

/-!
# Frames

A frame is one sixtieth of a second: the key events are handed to the machine, it takes as many
steps as the speed allows, its timers tick once, a changed picture is shown, and the buzzer follows
the sound timer.  Whatever fails ends the frame where it is.
-/

namespace Chip8

inductive Verdict where
  | proceed
  | quit
deriving DecidableEq, Repr

namespace Console

variable {κ δ β : Type}

/-- Hands events to the machine, up to one that asks to quit. -/
def handle : List KeyEvent → Action κ δ β Verdict
  | [] => pure .proceed
  | .quit :: _ => pure .quit
  | .up code :: rest => do
    let _ ← request (.keyUp code)
    handle rest
  | .down code :: rest => do
    let _ ← request (.keyDown code)
    let _ ← request (.resolveKey code)
    handle rest

/-- Takes steps until there have been enough or the machine waits for a key. -/
def takeSteps : Nat → Action κ δ β Unit
  | 0 => pure ()
  | n + 1 => do
    let _ ← request .step
    if (← get).machine.isWaiting then pure () else takeSteps n

def present [Display δ] : Action κ δ β Unit := do
  if (← request .takeRedraw) = .flag true then draw

def followTone [Buzzer β] : Action κ δ β Unit := do
  setTone (← get).machine.toneOn

/-- The part of a frame that follows the events. -/
def emulate [Display δ] [Buzzer β] : Action κ δ β Unit := do
  takeSteps (← get).speed
  let _ ← request .tick
  present
  followTone

def frame [Keyboard κ] [Display δ] [Buzzer β] : Action κ δ β Verdict := do
  let events ← readEvents
  match ← handle events with
  | .quit => pure .quit
  | .proceed =>
    emulate
    pure .proceed

end Console

end Chip8
