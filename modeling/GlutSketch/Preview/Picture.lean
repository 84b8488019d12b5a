import GlutSketch.Drawing.Color

/-!
# GlutSketch.Preview.Picture

Pictures of strokes on white.  `Picture.colorAt` says what color a pixel has,
and `Picture.raster` gives the colors of all pixels, row by row from the top.
-/

namespace GlutSketch

/-- A pixel; `y` points down.  It may lie outside of the picture. -/
structure Pixel where
  x : Int
  y : Int
deriving DecidableEq, Repr

/-- A line through pixels.  With a radius of zero it is one pixel wide, with a
radius of one three. -/
structure Stroke where
  color : Color
  radius : Nat
  path : List Pixel
deriving DecidableEq, Repr

/-- Strokes on white; the last is on top. -/
structure Picture where
  width : Nat
  height : Nat
  strokes : List Stroke
deriving DecidableEq, Repr

/-! ## Straight lines -/

/-- The height at `m` of the line from `a` at `a0` to `b` at `b0`, rounded to a
whole number. -/
def heightAt (a0 a b0 b m : Int) : Int :=
  if a0 = b0 then a else a + Int.fdiv (2 * ((m - a0) * (b - a)) + (b0 - a0)) (2 * (b0 - a0))

/-- The place `(m, n)` is at most `radius` pixels away, both ways, from the line
from `(a0, a)` to `(b0, b)`, which is not steep. -/
def isNearLine (radius : Nat) (a0 a b0 b m n : Int) : Bool :=
  let nearest := max (min a0 b0) (min (max a0 b0) m)
  (m - nearest).natAbs ≤ radius && (n - heightAt a0 a b0 b nearest).natAbs ≤ radius

/-- A line between two pixels covers a pixel. -/
def lineCovers (radius : Nat) (a b p : Pixel) : Bool :=
  if (b.y - a.y).natAbs ≤ (b.x - a.x).natAbs then isNearLine radius a.x a.y b.x b.y p.x p.y
  else isNearLine radius a.y a.x b.y b.x p.y p.x

namespace Stroke

/-- The straight parts of a stroke. -/
def lines (s : Stroke) : List (Pixel × Pixel) := s.path.zip s.path.tail

/-- A stroke covers a pixel. -/
def covers (s : Stroke) (p : Pixel) : Bool := s.lines.any fun (a, b) => lineCovers s.radius a b p

end Stroke

/-! ## Colors -/

namespace Picture

/-- The color of a pixel: that of the last stroke that covers it. -/
def colorAt (pic : Picture) (p : Pixel) : Color :=
  pic.strokes.foldl (fun below s => if s.covers p then s.color else below) Color.white

/-- The numbers below `size` that are at most `radius` outside of the range
between `a` and `b`. -/
def around (size radius : Nat) (a b : Int) : List Nat :=
  let first := (min a b - radius).toNat
  let last := min (max a b + radius + 1).toNat size
  (List.range (last - first)).map (first + ·)

/-- Setting a byte keeps the size. -/
theorem size_set (bytes : ByteArray) (i : Nat) (b : UInt8) (h : i < bytes.size) :
    (bytes.set i b h).size = bytes.size := by
  exact Array.size_set h

/-- Sets a pixel of a raster of three bytes per pixel. -/
def setPixel (raster : ByteArray) (index : Nat) (c : Color) : ByteArray :=
  if h : 3 * index + 2 < raster.size then
    ((raster.set (3 * index) c.red (by omega)).set (3 * index + 1) c.green
        (by simp only [size_set]; omega)).set (3 * index + 2) c.blue
      (by simp only [size_set]; omega)
  else raster

/-- Draws a straight part of a stroke into a raster. -/
def paintLine (pic : Picture) (s : Stroke) (raster : ByteArray) (a b : Pixel) : ByteArray :=
  (around pic.height s.radius a.y b.y).foldl (fun raster (y : Nat) =>
    (around pic.width s.radius a.x b.x).foldl (fun raster (x : Nat) =>
      if lineCovers s.radius a b ⟨x, y⟩ then setPixel raster (y * pic.width + x) s.color
      else raster) raster) raster

/-- The colors of all pixels, three bytes each. -/
def raster (pic : Picture) : ByteArray :=
  let blank := ByteArray.mk (Array.replicate (3 * pic.width * pic.height) 255)
  pic.strokes.foldl (fun raster s =>
    s.lines.foldl (fun raster (a, b) => pic.paintLine s raster a b) raster) blank

end Picture

end GlutSketch
