import Chip8.Application
import Chip8.CommandLine.Parse

/-!
# The program

Reads the command line and the program image, plays the program on the terminal at sixty frames a
second, and writes the journal to a file if one is named.  Keys are read from standard input.
-/

namespace Chip8.Program

open Application (TerminalConsole connect holdDuration)
open Console (Ending)

/-- What the frames of one run share. -/
structure Stage where
  settings : Settings
  started : Nat
  typed : IO.Ref (List Keystroke)
  journal : Option IO.FS.Handle

/-- Collects keystrokes until one asks to quit or there are no more. -/
partial def listen (input : IO.FS.Stream) (typed : IO.Ref (List Keystroke)) : IO Unit := do
  let bytes ← input.read 64
  if bytes.isEmpty then
    return
  let strokes := ((String.fromUTF8? bytes).getD "").toList.map Keystroke.ofChar
  typed.modify (· ++ strokes)
  if strokes.any fun stroke => stroke.meaning = .event .quit then
    return
  listen input typed

/-- Writes the records from number `first` on. -/
def Stage.write (stage : Stage) (records : Array Record) (first : Nat) : IO Unit := do
  match stage.journal with
  | none => return
  | some handle =>
    let elapsed := (← IO.monoMsNow) - stage.started
    for r in stage.settings.logLevel.select (records.toList.drop first) do
      handle.putStrLn (r.stampedLine elapsed)
    handle.flush

/-- Shows the picture in the top left corner if it is a new one. -/
def present (before after : Terminal) : IO Unit := do
  if before.shown ≠ after.shown then
    let rows := (after.shown.map Terminal.framed).getD []
    IO.print ("\x1b[H" ++ "\r\n".intercalate rows)
    (← IO.getStdout).flush

/-- Rings the terminal's bell when the tone begins, unless that is unwanted. -/
def Stage.ring (stage : Stage) (before after : Mute) : IO Unit := do
  if after.sounding && !before.sounding && !stage.settings.mute then
    IO.print "\x07"
    (← IO.getStdout).flush

/-- Frames until the budget is used up or one ends the loop. -/
partial def Stage.frames (stage : Stage) (budget done : Nat) (c : TerminalConsole) :
    IO (Ending × TerminalConsole) := do
  if budget = 0 then
    return (⟨done, none⟩, c)
  let start ← IO.monoMsNow
  let strokes ← stage.typed.modifyGet fun strokes => (strokes, [])
  let keyboard := { c.keyboard.type strokes with now := start }
  let (ending, c') := Console.advance done { c with keyboard }
  stage.write c'.session.journal c.session.journal.size
  present c.display c'.display
  stage.ring c.buzzer c'.buzzer
  match ending with
  | some ending => return (ending, c')
  | none =>
    IO.sleep (UInt32.ofNat (16 - ((← IO.monoMsNow) - start)))
    stage.frames (budget - 1) (done + 1) c'

def Stage.play (stage : Stage) (session : Session) : IO (Option Failure) := do
  let console := connect session stage.settings.speed.toNat holdDuration
  stage.write session.journal 0
  IO.print "\x1b[2J\x1b[?25l"
  let budget := Console.budget (stage.settings.frames.map UInt64.toNat)
  let (ending, c) ← stage.frames budget 0 console
  let recorded := c.session.journal.size
  IO.print "\x1b[?25h\n\n\n\n"
  match (Console.finish ending).run c with
  | .ok _ c' =>
    stage.write c'.session.journal recorded
    return none
  | .error failure c' =>
    stage.write c'.session.journal recorded
    return some failure

/-- Eight bytes of chance as a seed. -/
def chance : IO RandomSource := do
  let bytes ← IO.getRandomBytes 8
  return .ofSeed (bytes.foldl (fun n b => 256 * n + b.toUInt64) 0)

def play (settings : Settings) : IO UInt32 := do
  let image ← IO.FS.readBinFile settings.rom
  match Session.ofReads [.bytes image.toList] settings.config (← chance) with
  | .error fault =>
    IO.eprintln ("Error: " ++ fault.message)
    return 1
  | .ok session =>
    let journal ← settings.logFile.mapM fun path => IO.FS.Handle.mk path .append
    let typed ← IO.mkRef []
    let _ ← IO.asTask (listen (← IO.getStdin) typed) .dedicated
    match ← Stage.play ⟨settings, ← IO.monoMsNow, typed, journal⟩ session with
    | none => return 0
    | some failure =>
      IO.eprintln ("Error: " ++ failure.message)
      return 1

end Chip8.Program

def main (arguments : List String) : IO UInt32 := do
  match Chip8.CommandLine.parse arguments with
  | .ok settings => Chip8.Program.play settings
  | .error .help =>
    IO.println Chip8.CommandLine.Refusal.help.message
    return 0
  | .error refusal =>
    IO.eprintln ("error: " ++ refusal.message)
    return 2
