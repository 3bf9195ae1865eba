import Chip8.Config
import Chip8.Journal.Record

/-!
# Settings

What a command line can say.
-/

namespace Chip8

structure Settings where
  rom : String
  /-- Instructions in a frame. -/
  speed : UInt32 := 10
  legacyShift : Bool := false
  strict : Bool := false
  seed : Option UInt64 := none
  mute : Bool := false
  /-- Where the journal is written, if anywhere. -/
  logFile : Option String := none
  logLevel : Threshold := .upTo .info
  frames : Option UInt64 := none
deriving DecidableEq, Repr

def Settings.config (s : Settings) : Config where
  shift := if s.legacyShift then .copySecond else .inPlace
  unknown := if s.strict then .strict else .ignore
  seed := s.seed

end Chip8
