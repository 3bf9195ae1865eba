import Chip8.Console.Device

/-!
# Keystrokes

What a terminal reports of a key, and what it means to the console.  The keypad is laid on the left
of the keyboard:

    1 2 3 4      1 2 3 C
    q w e r  as  4 5 6 D
    a s d f      7 8 9 E
    z x c v      A 0 B F

Letters mean the same in both cases, where only the twenty-six letters `A` to `Z` have two.  Escape
asks to quit, and so does a small `c` with control.
-/

namespace Chip8

inductive KeyCode where
  | char (c : Char)
  | escape
  /-- Any other key. -/
  | other
deriving DecidableEq, Repr

structure Keystroke where
  code : KeyCode
  control : Bool := false
deriving DecidableEq, Repr

inductive Meaning where
  | event (e : KeyEvent)
  | unmapped (c : Char)
  | nothing
deriving DecidableEq, Repr

namespace Keystroke

def keypadCode : Char → Option UInt8
  | 'x' => some 0x0
  | '1' => some 0x1
  | '2' => some 0x2
  | '3' => some 0x3
  | 'q' => some 0x4
  | 'w' => some 0x5
  | 'e' => some 0x6
  | 'a' => some 0x7
  | 's' => some 0x8
  | 'd' => some 0x9
  | 'z' => some 0xA
  | 'c' => some 0xB
  | '4' => some 0xC
  | 'r' => some 0xD
  | 'f' => some 0xE
  | 'v' => some 0xF
  | _ => none

def meaning (k : Keystroke) : Meaning :=
  match k.code with
  | .escape => .event .quit
  | .other => .nothing
  | .char c =>
    if c = 'c' ∧ k.control then .event .quit
    else
      match keypadCode c.toLower with
      | some code => .event (.down code)
      | none => .unmapped c

/-- The keystroke behind a character that a terminal sends. -/
def ofChar (c : Char) : Keystroke :=
  if c = '\x1b' then { code := .escape }
  else if c = '\x03' then { code := .char 'c', control := true }
  else if c.toNat < 32 then { code := .other }
  else { code := .char c }

end Keystroke

end Chip8
