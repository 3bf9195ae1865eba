import Chip8.Proofs.Sprite
import Mathlib.Logic.ExistsUnique

/-!
# The three forms of a screen

A screen is packed into bytes, unpacked into rows of pixels, and listed as the points of one shade.
No form loses anything.  A full bitmap and its picture determine each other, and a picture is found
again from its lit points or from its dark ones: every point of the plot is in exactly one of the
two lists, and both run through the plot in one order.
-/

namespace Chip8

namespace Bitmap

/-! ## Packing -/

theorem pixel_eq_bit (b : Bitmap) {x y : Nat} (hx : x < 64) (hy : y < 32) :
    b.pixel x y = b.bit (position x y) := by
  simp [pixel, hx, hy]

/-- Eight bytes make a row. -/
theorem bit_position (b : Bitmap) (x y : Nat) :
    b.bit (position x y) =
      ((b.bytes[8 * y + x / 8]?).map fun byte => byte.toNat.testBit (7 - x % 8)).getD false := by
  have hposition : position x y = x + 64 * y := rfl
  have hbyte : position x y / 8 = 8 * y + x / 8 := by omega
  have hplace : position x y % 8 = x % 8 := by omega
  rw [bit, hbyte, hplace]
  cases b.bytes[8 * y + x / 8]? <;> rfl

theorem pixel_picture (b : Bitmap) {x y : Nat} (hx : x < 64) (hy : y < 32) :
    b.picture.pixel x y = b.bit (position x y) := by
  rw [picture, Picture.pixel_ofPixels hx hy, pixel_eq_bit b hx hy]

/-- A bit of a full bitmap is a pixel of its picture. -/
theorem bit_eq_pixel_picture (b : Bitmap) {n : Nat} (hn : n < 2048) :
    b.bit n = b.picture.pixel (n % 64) (n / 64) := by
  have hx : n % 64 < 64 := Nat.mod_lt n (by decide)
  have hy : n / 64 < 32 := by omega
  rw [pixel_picture b hx hy, position, Nat.mod_add_div]

/-- The byte with the given pixels, the leftmost in the highest bit. -/
def packed (pixels : Fin 8 → Bool) : UInt8 :=
  ⟨(BitVec.ofBoolListBE (List.ofFn pixels)).cast List.length_ofFn⟩

theorem testBit_packed (pixels : Fin 8 → Bool) (k : Fin 8) :
    (packed pixels).toNat.testBit (7 - k.val) = pixels k := by
  change ((BitVec.ofBoolListBE (List.ofFn pixels)).cast List.length_ofFn).getLsbD (7 - k.val) = _
  have hreach : 7 - k.val < 8 := by omega
  have hback : 8 - 1 - (7 - k.val) = k.val := by omega
  rw [BitVec.getLsbD_cast, BitVec.getLsbD_ofBoolListBE, List.length_ofFn, hback,
    decide_eq_true hreach, Bool.true_and, List.getD_eq_getElem?_getD, List.getElem?_ofFn,
    dif_pos k.isLt, Option.getD_some]

/-- The bitmap that unpacks into a picture. -/
def ofPicture (p : Picture) : Bitmap :=
  ⟨Array.ofFn fun i : Fin 256 =>
    packed fun k => p.pixel (8 * (i.val % 8) + k.val) (i.val / 8)⟩

theorem size_ofPicture (p : Picture) : (ofPicture p).bytes.size = 256 := by
  simp [ofPicture]

theorem bit_ofPicture (p : Picture) {n : Nat} (hn : n < 2048) :
    (ofPicture p).bit n = p.pixel (n % 64) (n / 64) := by
  have hbyte : n / 8 < 256 := by omega
  have hplace : n % 8 < 8 := Nat.mod_lt n (by decide)
  have hcolumn : 8 * (n / 8 % 8) + n % 8 = n % 64 := by omega
  have hrow : n / 8 / 8 = n / 64 := by omega
  have hget : (ofPicture p).bytes[n / 8]? =
      some (packed fun k => p.pixel (8 * (n / 8 % 8) + k.val) (n / 8 / 8)) := by
    simp [ofPicture, hbyte]
  rw [bit, hget]
  refine (testBit_packed _ ⟨n % 8, hplace⟩).trans ?_
  rw [hcolumn, hrow]

theorem picture_ofPicture (p : Picture) : (ofPicture p).picture = p := by
  apply Picture.ext_pixel
  intro x hx y hy
  have hx : x < 64 := hx
  have hy : y < 32 := hy
  have hposition : position x y = x + 64 * y := rfl
  have hcolumn : position x y % 64 = x := by omega
  have hrow : position x y / 64 = y := by omega
  rw [pixel_picture _ hx hy, bit_ofPicture p (by omega), hcolumn, hrow]

/-- Full bitmaps are told apart by their pictures. -/
theorem eq_of_picture_eq {b b' : Bitmap} (hb : b.bytes.size = 256) (hb' : b'.bytes.size = 256)
    (h : b.picture = b'.picture) : b = b' := by
  apply ext_bit (hb.trans hb'.symm)
  intro n hn
  have hn : n < 2048 := by omega
  rw [bit_eq_pixel_picture b hn, h, ← bit_eq_pixel_picture b' hn]

end Bitmap

namespace Picture

/-! ## Listing -/

/-- Where the pixel in column `x` of row `y` lies in the plot. -/
def point (x y : Nat) : Int × Int :=
  (x, -y)

/-- All points of the plot, top row first and from left to right. -/
def plot : List (Int × Int) :=
  (List.range height).flatMap fun y => (List.range width).map fun x => point x y

/-- One point comes before another: it lies higher, or further left in the same row. -/
def Precedes (a b : Int × Int) : Prop :=
  b.2 < a.2 ∨ a.2 = b.2 ∧ a.1 < b.1

/-- The shade of a picture at a point. -/
def shade (p : Picture) (q : Int × Int) : Bool :=
  p.pixel q.1.toNat (-q.2).toNat

/-- The picture that is found again from the points of one shade. -/
def ofPoints (lit : Bool) (points : List (Int × Int)) : Picture :=
  ofPixels fun x y => decide (point x y ∈ points) == lit

theorem getElem_rows (p : Picture) {x y : Nat} (hx : x < 64) (hy : y < 32) :
    p.rows[y][x] = p.pixel x y := by
  simp [pixel, hx, hy]

theorem mem_plot {q : Int × Int} : q ∈ plot ↔ ∃ x < 64, ∃ y < 32, q = point x y := by
  simp only [plot, List.mem_flatMap, List.mem_map, List.mem_range]
  constructor
  · rintro ⟨y, hy, x, hx, rfl⟩
    exact ⟨x, hx, y, hy, rfl⟩
  · rintro ⟨x, hx, y, hy, rfl⟩
    exact ⟨y, hy, x, hx, rfl⟩

theorem pairwise_plot : plot.Pairwise Precedes := by
  rw [plot, List.pairwise_flatMap]
  constructor
  · intro y _
    rw [List.pairwise_map]
    apply List.pairwise_lt_range.imp
    intro x x' hlt
    exact .inr ⟨rfl, Int.ofNat_lt.mpr hlt⟩
  · apply List.pairwise_lt_range.imp
    intro y y' hlt a ha b hb
    obtain ⟨x, -, rfl⟩ := List.mem_map.mp ha
    obtain ⟨x', -, rfl⟩ := List.mem_map.mp hb
    exact .inl (Int.neg_lt_neg (Int.ofNat_lt.mpr hlt))

theorem nodup_plot : plot.Nodup := by
  apply pairwise_plot.imp
  rintro a b (hhigher | ⟨-, hleft⟩) rfl
  · exact Int.lt_irrefl _ hhigher
  · exact Int.lt_irrefl _ hleft

theorem shade_point (p : Picture) (x y : Nat) : p.shade (point x y) = p.pixel x y := by
  simp [shade, point]

/-- The points of a shade are the plot without the others. -/
theorem points_eq_filter (p : Picture) (lit : Bool) :
    p.points lit = plot.filter fun q => p.shade q == lit := by
  rw [points, plot, List.filter_flatMap]
  congr 1
  funext y
  have hshade : (fun q => p.shade q == lit) ∘ (fun x : Nat => point x y) =
      fun x => p.pixel x y == lit := by
    funext x
    rw [Function.comp_apply, shade_point]
  rw [List.filter_map, hshade]
  rfl

theorem pairwise_points (p : Picture) (lit : Bool) : (p.points lit).Pairwise Precedes := by
  rw [points_eq_filter]
  exact pairwise_plot.filter _

theorem point_mem_points (p : Picture) (lit : Bool) {x y : Nat} (hx : x < 64) (hy : y < 32) :
    point x y ∈ p.points lit ↔ p.pixel x y = lit := by
  have hplot : point x y ∈ plot := mem_plot.mpr ⟨x, hx, y, hy, rfl⟩
  rw [points_eq_filter, List.mem_filter, shade_point, beq_iff_eq, and_iff_right hplot]

/-- The two shades share out the plot. -/
theorem perm_plot (p : Picture) : (p.points true ++ p.points false).Perm plot := by
  have hdark : (fun q => p.shade q == false) = fun q => !(p.shade q == true) := by
    funext q
    cases p.shade q <;> rfl
  rw [points_eq_filter, points_eq_filter, hdark]
  exact List.filter_append_perm _ plot

theorem count_points (p : Picture) {x y : Nat} (hx : x < 64) (hy : y < 32) :
    (p.points true ++ p.points false).count (point x y) = 1 := by
  rw [p.perm_plot.count_eq, nodup_plot.count, if_pos (mem_plot.mpr ⟨x, hx, y, hy, rfl⟩)]

theorem ofPoints_points (p : Picture) (lit : Bool) : ofPoints lit (p.points lit) = p := by
  apply ext_pixel
  intro x hx y hy
  have hmem := p.point_mem_points lit hx hy
  rw [ofPoints, pixel_ofPixels hx hy]
  cases hpixel : p.pixel x y <;> cases lit <;> simp_all

/-- The three forms of a screen determine each other.  Bytes past the end of a bitmap are dark;
full bitmaps and pictures stand in one-to-one correspondence.  The lists of lit and of dark points
share out the plot, both from the top row down and from left to right, and the picture is found
again from either of them. -/
theorem forms_determine_each_other :
    (∀ (b : Bitmap) (x y : Nat) (hx : x < 64) (hy : y < 32), b.picture.rows[y][x] =
      ((b.bytes[8 * y + x / 8]?).map fun byte => byte.toNat.testBit (7 - x % 8)).getD false) ∧
    (∀ b b' : Bitmap, b.bytes.size = 256 → b'.bytes.size = 256 →
      (b.picture = b'.picture ↔ b = b')) ∧
    (∀ p : Picture, ∃! b : Bitmap, b.bytes.size = 256 ∧ b.picture = p) ∧
    ∀ p : Picture,
      (∀ x y : Nat, x < 64 → y < 32 →
        (p.points true ++ p.points false).count ((x : Int), -(y : Int)) = 1) ∧
      (∀ q ∈ p.points true ++ p.points false,
        ∃ x y : Nat, x < 64 ∧ y < 32 ∧ q = ((x : Int), -(y : Int))) ∧
      ∀ lit, (p.points lit).Pairwise Precedes ∧
        (∀ (x y : Nat) (hx : x < 64) (hy : y < 32),
          ((x : Int), -(y : Int)) ∈ p.points lit ↔ p.rows[y][x] = lit) ∧
        ofPoints lit (p.points lit) = p := by
  refine ⟨?_, ?_, ?_, ?_⟩
  · intro b x y hx hy
    rw [getElem_rows _ hx hy, Bitmap.pixel_picture b hx hy, Bitmap.bit_position]
  · intro b b' hb hb'
    exact ⟨Bitmap.eq_of_picture_eq hb hb', congrArg Bitmap.picture⟩
  · intro p
    refine ⟨.ofPicture p, ⟨Bitmap.size_ofPicture p, Bitmap.picture_ofPicture p⟩, ?_⟩
    rintro b ⟨hb, hpicture⟩
    apply Bitmap.eq_of_picture_eq hb (Bitmap.size_ofPicture p)
    rw [hpicture, Bitmap.picture_ofPicture]
  · intro p
    refine ⟨fun x y hx hy => p.count_points hx hy, fun q hq => ?_, fun lit => ?_⟩
    · obtain ⟨x, hx, y, hy, rfl⟩ := mem_plot.mp (p.perm_plot.mem_iff.mp hq)
      exact ⟨x, y, hx, hy, rfl⟩
    · refine ⟨p.pairwise_points lit, fun x y hx hy => ?_, p.ofPoints_points lit⟩
      rw [getElem_rows p hx hy]
      exact p.point_mem_points lit hx hy

/-- A lit pixel in the last corner is the lowest bit of the last byte.  It tells the bitmap from a
dark one, and it is a point of the lit list only. -/
theorem corner_pixel_told :
    let b : Bitmap := ⟨(Array.replicate 255 0).push 1⟩
    let dark : Bitmap := ⟨(Array.replicate 255 0).push 0⟩
    b.bytes.size = 256 ∧ dark.bytes.size = 256 ∧ b.picture ≠ dark.picture ∧
      b.picture.rows[31][63] = true ∧
      ((63 : Int), (-31 : Int)) ∈ b.picture.points true ∧
      ((63 : Int), (-31 : Int)) ∉ b.picture.points false ∧
      (b.picture.points true ++ b.picture.points false).count (63, -31) = 1 := by
  intro b dark
  obtain ⟨hpixels, hsame, -, hpoints⟩ := forms_determine_each_other
  obtain ⟨honce, -, hlists⟩ := hpoints b.picture
  obtain ⟨-, hlitPoints, -⟩ := hlists true
  obtain ⟨-, hdarkPoints, -⟩ := hlists false
  have hsize : b.bytes.size = 256 := by simp [b]
  have hdarkSize : dark.bytes.size = 256 := by simp [dark]
  have hlast : ∀ byte : UInt8, ((Array.replicate 255 0).push byte)[255]? = some byte := by
    intro byte
    rw [Array.getElem?_push, if_pos (Array.size_replicate ..).symm]
  have hlit : b.picture.rows[31][63] = true := by
    rw [hpixels b 63 31 (by decide) (by decide)]
    change ((((Array.replicate 255 0).push 1)[255]?).map _).getD false = true
    rw [hlast]
    rfl
  refine ⟨hsize, hdarkSize, fun h => ?_, hlit, ?_, fun hmem => ?_, ?_⟩
  · have hbyte : some 1 = some (0 : UInt8) := by
      rw [← hlast 1, ← hlast 0]
      exact congrArg (fun b : Bitmap => b.bytes[255]?) ((hsame b dark hsize hdarkSize).mp h)
    cases hbyte
  · exact (hlitPoints 63 31 (by decide) (by decide)).mpr hlit
  · have hunlit := (hdarkPoints 63 31 (by decide) (by decide)).mp hmem
    exact Bool.false_ne_true (hunlit.symm.trans hlit)
  · exact honce 63 31 (by decide) (by decide)

end Picture

end Chip8
