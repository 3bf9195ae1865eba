import Chip8.Console.Device

/-!
# The terminal as a display

The picture stands in the top left corner of the terminal inside a frame with a title, one
character for each pixel.  While a console runs, the terminal is in raw mode and its cursor is
hidden; both end with the console, and the picture stays.
-/

namespace Chip8

structure Terminal where
  raw : Bool
  cursorVisible : Bool
  shown : Option Picture
deriving DecidableEq

namespace Terminal

abbrev rowCount : Nat := 40

def idle : Terminal :=
  ⟨false, true, none⟩

def engage (t : Terminal) : Terminal :=
  { t with raw := true, cursorVisible := false }

def release (t : Terminal) : Terminal :=
  { t with raw := false, cursorVisible := true }

def title : String := "CHIP-8"

def line (n : Nat) : String :=
  String.ofList (List.replicate n '─')

def top : String :=
  "┌" ++ title ++ line (Picture.width - title.length) ++ "┐"

def bottom : String :=
  "└" ++ line Picture.width ++ "┘"

def framed (p : Picture) : List String :=
  top :: p.text.map (fun row => "│" ++ row ++ "│") ++ [bottom]

/-- All rows of the terminal, without the blanks at their ends. -/
def rows (t : Terminal) : List String :=
  ((t.shown.map framed).getD []).rightpad rowCount ""

instance : Display Terminal where
  draw t picture := (.ok (), { t with shown := some picture })

end Terminal

end Chip8
