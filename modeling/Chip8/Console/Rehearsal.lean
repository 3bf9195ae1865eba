import Chip8.Console.Device

/-!
# Rehearsals

Devices for running a console without a player: a keyboard that plays a script, a display that keeps
the last picture, and a way to let any device fail at chosen calls.
-/

namespace Chip8

/-- One batch of events for each look, and none when the script has run out. -/
structure Script where
  batches : List (List KeyEvent)
deriving DecidableEq

instance : Keyboard Script where
  read s := ⟨.ok (s.batches.head?.getD []), [], ⟨s.batches.tail⟩⟩

structure Recorder where
  frames : Nat
  last : Option Picture
deriving DecidableEq

def Recorder.fresh : Recorder :=
  ⟨0, none⟩

instance : Display Recorder where
  draw r picture := (.ok (), ⟨r.frames + 1, some picture⟩)

/-- A device whose `n`-th call, counted from zero, fails if `fails n` says why.  A failing call does
not reach the device. -/
structure Flaky (δ : Type) where
  device : δ
  calls : Nat
  fails : Nat → Option String

namespace Flaky

variable {δ : Type}

def attempt (f : Flaky δ) (call : δ → Except String Unit × δ) : Except String Unit × Flaky δ :=
  match f.fails f.calls with
  | some why => (.error why, { f with calls := f.calls + 1 })
  | none => ((call f.device).1, { f with device := (call f.device).2, calls := f.calls + 1 })

instance [Keyboard δ] : Keyboard (Flaky δ) where
  read f :=
    match f.fails f.calls with
    | some why => ⟨.error why, [], { f with calls := f.calls + 1 }⟩
    | none =>
      let reading := Keyboard.read f.device
      ⟨reading.events, reading.unmapped,
        { f with device := reading.keyboard, calls := f.calls + 1 }⟩

instance [Display δ] : Display (Flaky δ) where
  draw f picture := f.attempt fun device => Display.draw device picture

instance [Buzzer δ] : Buzzer (Flaky δ) where
  sounding f := Buzzer.sounding f.device
  start f := f.attempt Buzzer.start
  stop f := f.attempt Buzzer.stop

end Flaky

end Chip8
