import Chip8.CommandLine.Settings
import Chip8.Console.Loop
import Chip8.Console.Mute
import Chip8.Terminal.Keyboard
import Chip8.Terminal.Screen

/-!
# The application

A program run in the terminal as the settings say, from the reading of its image to the terminal it
leaves behind.  The buzzer only keeps account of the tone; to make it heard is left to the program's
outer layer.
-/

namespace Chip8.Application

/-- How long a key counts as held, in milliseconds. -/
def holdDuration : Nat := 150

abbrev TerminalConsole := Console TerminalKeyboard Terminal Mute

/-- A console on an idle terminal. -/
def connect (session : Session) (speed duration : Nat) : TerminalConsole :=
  ⟨session, .idle duration, Terminal.idle.engage, .fresh, speed⟩

structure Outcome where
  failure : Option Failure
  terminal : Terminal
  journal : List Record

def runSession (settings : Settings) (session : Session) : Outcome :=
  let console := connect session settings.speed.toNat holdDuration
  match (Console.mainLoop (settings.frames.map UInt64.toNat)).run console with
  | .ok _ c => ⟨none, c.display.release, c.session.journal.toList⟩
  | .error failure c => ⟨some failure, c.display.release, c.session.journal.toList⟩

/-- The terminal is not touched unless there is a machine to run. -/
def run (settings : Settings) (image : List Read) (chance : RandomSource) : Outcome :=
  match Session.ofReads image settings.config chance with
  | .error fault => ⟨some (.fault fault), .idle, []⟩
  | .ok session => runSession settings session

end Chip8.Application
