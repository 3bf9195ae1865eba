import Chip8.Console.Frame

/-!
# The main loop

Frames follow one another until one asks to quit, one fails, or the limit is reached.  The limit is
looked at after a frame, so a limit of zero still runs one.  Frames are counted in 64 bits, which
bounds a loop without a limit.  On the way out the tone is switched off, and if that fails it is the
failure reported.
-/

namespace Chip8.Console

variable {κ δ β : Type}

/-- How a loop came to its end. -/
structure Ending where
  frames : Nat
  failure : Option Failure
deriving DecidableEq

/-- One frame of a loop, given how many there have been, and the ending if the loop ends here. -/
def advance [Keyboard κ] [Display δ] [Buzzer β] (done : Nat) (c : Console κ δ β) :
    Option Ending × Console κ δ β :=
  match frame.run c with
  | .ok .proceed c' => (none, c')
  | .ok .quit c' => (some ⟨done, none⟩, c')
  | .error failure c' => (some ⟨done, some failure⟩, c')

/-- Runs frames while the budget lasts. -/
def runFrames [Keyboard κ] [Display δ] [Buzzer β] :
    Nat → Nat → Console κ δ β → Ending × Console κ δ β
  | 0, done, c => (⟨done, none⟩, c)
  | budget + 1, done, c =>
    match advance done c with
    | (none, c') => runFrames budget (done + 1) c'
    | (some ending, c') => (ending, c')

def budget : Option Nat → Nat
  | some limit => max limit 1
  | none => 18446744073709551616

def note (r : Record) : Action κ δ β Unit :=
  modify fun c => { c with session := c.session.note r }

/-- Silences the buzzer and reports the ending. -/
def finish [Buzzer β] (ending : Ending) : Action κ δ β Nat := do
  setTone false
  note (.stopped ending.frames)
  match ending.failure with
  | none => pure ending.frames
  | some failure => throw failure

/-- The number of frames run. -/
def mainLoop [Keyboard κ] [Display δ] [Buzzer β] (limit : Option Nat) : Action κ δ β Nat :=
  fun c =>
    let (ending, c') := runFrames (budget limit) 0 c
    finish ending c'

end Chip8.Console
