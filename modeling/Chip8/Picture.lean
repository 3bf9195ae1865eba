/-!
# Pictures

A picture is the whole screen, unpacked: 32 rows of 64 pixels.  `Picture.points` lists the pixels of
one shade as points of a plot whose vertical axis grows upwards, so rows lie at zero and below.
-/

namespace Chip8

abbrev Picture.width : Nat := 64
abbrev Picture.height : Nat := 32

structure Picture where
  rows : Vector (Vector Bool 64) 32
deriving DecidableEq

namespace Picture

def ofPixels (f : Nat → Nat → Bool) : Picture :=
  ⟨Vector.ofFn fun y => Vector.ofFn fun x => f x.val y.val⟩

/-- Dark outside the screen. -/
def pixel (p : Picture) (x y : Nat) : Bool :=
  ((p.rows[y]?).bind fun row => row[x]?).getD false

def pointsOfRow (p : Picture) (lit : Bool) (y : Nat) : List (Int × Int) :=
  ((List.range width).filter fun x => p.pixel x y == lit).map fun (x : Nat) => ((x : Int), -(y : Int))

/-- The points of the pixels that are `lit`, top row first and from left to right. -/
def points (p : Picture) (lit : Bool) : List (Int × Int) :=
  (List.range height).flatMap (p.pointsOfRow lit)

def charOf (lit : Bool) : Char :=
  if lit then '#' else '.'

def rowText (p : Picture) (y : Nat) : String :=
  String.ofList ((List.range width).map fun x => charOf (p.pixel x y))

def text (p : Picture) : List String :=
  (List.range height).map p.rowText

/-- The horizontal span of the points of a screen `w` pixels wide. -/
def xBounds (w : Nat) : Int × Int :=
  (0, (w : Int) - 1)

/-- The vertical span of the points of a screen `h` pixels high. -/
def yBounds (h : Nat) : Int × Int :=
  (1 - (h : Int), 0)

@[simp]
theorem pixel_ofPixels {f : Nat → Nat → Bool} {x y : Nat} (hx : x < width) (hy : y < height) :
    (ofPixels f).pixel x y = f x y := by
  have hx : x < 64 := hx
  have hy : y < 32 := hy
  simp [ofPixels, pixel, hx, hy]

theorem ext_pixel {p q : Picture}
    (h : ∀ x < width, ∀ y < height, p.pixel x y = q.pixel x y) : p = q := by
  cases p with | mk v => cases q with | mk w =>
  congr 1
  apply Vector.ext
  intro y hy
  apply Vector.ext
  intro x hx
  simpa [pixel, hx, hy] using h x hx y hy

end Picture

end Chip8
