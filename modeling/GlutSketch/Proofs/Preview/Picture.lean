import Mathlib.Tactic.Linarith
import Mathlib.Tactic.Ring
import GlutSketch.Preview.Picture

/-!
# GlutSketch.Proofs.Preview.Picture

The raster of a picture has the colors that the picture is said to have.  It is
painted part by part, and each part only where it may cover something; the color
of a pixel is that of the last stroke that covers it.

* `lineCovers_bounds` -- a line covers nothing far from its ends.
* `Picture.Shows` -- a raster has the colors of a function of pixels.
* `Picture.shows_raster` -- the raster of a picture.
-/

namespace GlutSketch

/-! ## Straight lines -/

section

variable {radius : Nat} {a0 a b0 b m n : Int}

/-- A fraction of a distance, rounded, does not go beyond it. -/
theorem rounded_bounds {part whole distance : Int} (hwhole : 0 < whole)
    (hpart : 0 ≤ part ∧ part ≤ whole) :
    min 0 distance ≤ Int.fdiv (2 * (part * distance) + whole) (2 * whole) ∧
      Int.fdiv (2 * (part * distance) + whole) (2 * whole) ≤ max 0 distance := by
  have hdenominator : 0 < 2 * whole := by omega
  rw [Int.fdiv_eq_ediv_of_nonneg _ hdenominator.le, Int.le_ediv_iff_mul_le hdenominator,
    ← @Int.lt_add_one_iff _ (max 0 distance), Int.ediv_lt_iff_lt_mul hdenominator]
  rcases le_total 0 distance with hdistance | hdistance
  · have hlow : 0 ≤ part * distance := Int.mul_nonneg hpart.1 hdistance
    have hhigh : part * distance ≤ whole * distance :=
      Int.mul_le_mul_of_nonneg_right hpart.2 hdistance
    rw [min_eq_left hdistance, max_eq_right hdistance]
    constructor <;> linarith
  · have hlow : whole * distance ≤ part * distance :=
      Int.mul_le_mul_of_nonpos_right hpart.2 hdistance
    have hhigh : part * distance ≤ 0 := Int.mul_nonpos_of_nonneg_of_nonpos hpart.1 hdistance
    rw [min_eq_right hdistance, max_eq_left hdistance]
    constructor <;> linarith

/-- Between two places, the rounded height is between the two heights. -/
theorem heightAt_bounds (h : min a0 b0 ≤ m ∧ m ≤ max a0 b0) :
    min a b ≤ heightAt a0 a b0 b m ∧ heightAt a0 a b0 b m ≤ max a b := by
  unfold heightAt
  split
  · omega
  · next hne =>
    rcases Int.lt_or_gt_of_ne hne with hlt | hlt
    · have hbounds := @rounded_bounds (m - a0) (b0 - a0) (b - a) (by omega) (by omega)
      omega
    · have hbounds := @rounded_bounds (a0 - m) (a0 - b0) (b - a) (by omega) (by omega)
      have hnumerator : 2 * ((a0 - m) * (b - a)) + (a0 - b0) =
          -(2 * ((m - a0) * (b - a)) + (b0 - a0)) := by ring
      have hdenominator : 2 * (a0 - b0) = -(2 * (b0 - a0)) := by ring
      rw [hnumerator, hdenominator, Int.neg_fdiv_neg] at hbounds
      omega

/-- A pixel near a line is near its rectangle, so that only pixels of that
rectangle have to be tried. -/
theorem isNearLine_bounds (h : isNearLine radius a0 a b0 b m n) :
    (min a0 b0 - radius ≤ m ∧ m ≤ max a0 b0 + radius) ∧
      min a b - radius ≤ n ∧ n ≤ max a b + radius := by
  simp only [isNearLine, Bool.and_eq_true, decide_eq_true_eq] at h
  have hheight := @heightAt_bounds a0 a b0 b (max (min a0 b0) (min (max a0 b0) m)) (by omega)
  omega

/-- A line covers no pixel that is farther than its radius outside of the box of
its ends. -/
theorem lineCovers_bounds {a b p : Pixel} (h : lineCovers radius a b p) :
    (min a.x b.x - radius ≤ p.x ∧ p.x ≤ max a.x b.x + radius) ∧
      min a.y b.y - radius ≤ p.y ∧ p.y ≤ max a.y b.y + radius := by
  unfold lineCovers at h
  split at h
  · exact isNearLine_bounds h
  · exact (isNearLine_bounds h).symm

end

namespace Picture

/-- The pixels that are tried are those of the picture within the rectangle. -/
theorem mem_around_iff {size radius : Nat} {a b : Int} {n : Nat} :
    n ∈ around size radius a b ↔
      n < size ∧ min a b - radius ≤ n ∧ (n : Int) ≤ max a b + radius := by
  simp only [around, List.mem_map, List.mem_range]
  constructor
  · rintro ⟨i, hi, rfl⟩
    omega
  · rintro h
    exact ⟨n - (min a b - radius).toNat, by omega, by omega⟩

/-! ## Rasters -/

/-- A raster has a color at an index. -/
structure HasColor (raster : ByteArray) (index : Nat) (c : Color) : Prop where
  red : raster.data[3 * index]? = some c.red
  green : raster.data[3 * index + 1]? = some c.green
  blue : raster.data[3 * index + 2]? = some c.blue

/-- A raster has the size of a picture and the colors that a function gives to
its pixels. -/
structure Shows (pic : Picture) (color : Pixel → Color) (raster : ByteArray) : Prop where
  size : raster.size = 3 * pic.width * pic.height
  hasColor : ∀ x < pic.width, ∀ y < pic.height,
    HasColor raster (y * pic.width + x) (color ⟨x, y⟩)

section

variable {pic : Picture} {color color' : Pixel → Color} {raster : ByteArray} {c : Color}

/-- A raster shows every coloring with the same colors in the picture. -/
theorem Shows.congr (h : pic.Shows color raster)
    (hcolor : ∀ x < pic.width, ∀ y < pic.height, color ⟨x, y⟩ = color' ⟨x, y⟩) :
    pic.Shows color' raster :=
  ⟨h.size, fun x hx y hy => hcolor x hx y hy ▸ h.hasColor x hx y hy⟩

theorem getElem?_set {i : Nat} {b : UInt8} (h : i < raster.size) (j : Nat) :
    (raster.set i b h).data[j]? = if i = j then some b else raster.data[j]? :=
  Array.getElem?_set h

/-- Setting a pixel gives it its color, and touches no other one. -/
theorem HasColor.setPixel {index : Nat} (h : 3 * index + 2 < raster.size) :
    HasColor (setPixel raster index c) index c ∧
      ∀ other c', other ≠ index → HasColor raster other c' →
        HasColor (Picture.setPixel raster index c) other c' := by
  rw [Picture.setPixel, dif_pos h]
  refine ⟨⟨?_, ?_, ?_⟩, fun other c' hne hother => ⟨?_, ?_, ?_⟩⟩
  · rw [getElem?_set, getElem?_set, getElem?_set, if_neg (by omega), if_neg (by omega), if_pos rfl]
  · rw [getElem?_set, getElem?_set, if_neg (by omega), if_pos rfl]
  · rw [getElem?_set, if_pos rfl]
  · rw [getElem?_set, getElem?_set, getElem?_set, if_neg (by omega), if_neg (by omega),
      if_neg (by omega), hother.red]
  · rw [getElem?_set, getElem?_set, getElem?_set, if_neg (by omega), if_neg (by omega),
      if_neg (by omega), hother.green]
  · rw [getElem?_set, getElem?_set, getElem?_set, if_neg (by omega), if_neg (by omega),
      if_neg (by omega), hother.blue]

theorem size_setPixel (raster : ByteArray) (index : Nat) (c : Color) :
    (setPixel raster index c).size = raster.size := by
  unfold setPixel
  split
  · simp only [size_set]
  · rfl

/-- The pixels of a picture have different indices. -/
theorem index_eq_iff {width x y x' y' : Nat} (hx : x < width) (hx' : x' < width) :
    y * width + x = y' * width + x' ↔ x = x' ∧ y = y' := by
  constructor
  · intro h
    rcases Nat.lt_trichotomy y y' with hlt | rfl | hlt
    · have hrow := Nat.mul_le_mul_right width hlt
      rw [Nat.succ_mul] at hrow
      omega
    · omega
    · have hrow := Nat.mul_le_mul_right width hlt
      rw [Nat.succ_mul] at hrow
      omega
  · rintro ⟨rfl, rfl⟩
    rfl

/-- The three bytes of a pixel lie in the raster. -/
theorem index_lt {width height x y : Nat} (hx : x < width) (hy : y < height) :
    3 * (y * width + x) + 2 < 3 * width * height := by
  have hrow := Nat.mul_le_mul_right width hy
  rw [Nat.succ_mul] at hrow
  rw [Nat.mul_assoc, Nat.mul_comm width]
  omega

/-! ## Painting -/

/-- Setting a pixel changes the color of this pixel only. -/
theorem Shows.setPixel (h : pic.Shows color raster) {x y : Nat} (hx : x < pic.width)
    (hy : y < pic.height) :
    pic.Shows (fun p => if p = ⟨x, y⟩ then c else color p)
      (setPixel raster (y * pic.width + x) c) := by
  have hbound : 3 * (y * pic.width + x) + 2 < raster.size := h.size ▸ index_lt hx hy
  obtain ⟨hset, hkept⟩ := @HasColor.setPixel raster c _ hbound
  refine ⟨(size_setPixel ..).trans h.size, fun x' hx' y' hy' => ?_⟩
  by_cases hsame : x' = x ∧ y' = y
  · obtain ⟨rfl, rfl⟩ := hsame
    simpa using hset
  · rw [if_neg (by simpa using hsame)]
    exact hkept _ _ (mt (index_eq_iff hx' hx).1 hsame) (h.hasColor x' hx' y' hy')

/-- Things are painted one after the other, all in one color where they cover
something. -/
theorem Shows.foldl {α : Type} {paint : ByteArray → α → ByteArray} {Covers : α → Pixel → Prop}
    [∀ a p, Decidable (Covers a p)] {things : List α}
    (hpaint : ∀ a ∈ things, ∀ color raster, pic.Shows color raster →
      pic.Shows (fun p => if Covers a p then c else color p) (paint raster a))
    (h : pic.Shows color raster) :
    pic.Shows (fun p => if ∃ a ∈ things, Covers a p then c else color p)
      (things.foldl paint raster) := by
  induction things generalizing color raster with
  | nil => simpa using h
  | cons a things ih =>
      obtain ⟨hfirst, hrest⟩ := List.forall_mem_cons.1 hpaint
      refine (ih hrest (hfirst color raster h)).congr fun x _ y _ => ?_
      by_cases hthings : ∃ b ∈ things, Covers b ⟨x, y⟩
      · simp [hthings]
      · by_cases ha : Covers a ⟨x, y⟩ <;> simp [hthings, ha]

/-- Only the pixels in the box around a line are tried, which are all that it
covers. -/
theorem Shows.paintLine (h : pic.Shows color raster) (s : Stroke) (a b : Pixel) :
    pic.Shows (fun p => if lineCovers s.radius a b p then s.color else color p)
      (pic.paintLine s raster a b) := by
  have hpixel (y : Nat) (hy : y < pic.height) :
      ∀ x ∈ around pic.width s.radius a.x b.x, ∀ color raster, pic.Shows color raster →
        pic.Shows (fun p => if p = ⟨x, y⟩ ∧ lineCovers s.radius a b p then s.color else color p)
          (if lineCovers s.radius a b ⟨x, y⟩ then
            Picture.setPixel raster (y * pic.width + x) s.color else raster) := by
    intro x hx color raster h
    split
    · next hcovers =>
      refine (h.setPixel (mem_around_iff.1 hx).1 hy).congr fun x' _ y' _ => ?_
      by_cases hsame : (⟨x', y'⟩ : Pixel) = ⟨x, y⟩ <;> simp [hsame, hcovers]
    · next hcovers =>
      refine h.congr fun x' _ y' _ => ?_
      by_cases hsame : (⟨x', y'⟩ : Pixel) = ⟨x, y⟩ <;> simp [hsame, hcovers]
  have hrow :
      ∀ y ∈ around pic.height s.radius a.y b.y, ∀ color raster, pic.Shows color raster → _ :=
    fun y hy color raster h => Shows.foldl (hpixel y (mem_around_iff.1 hy).1) h
  refine (Shows.foldl hrow h).congr fun x hx y hy => if_congr ?_ rfl rfl
  constructor
  · rintro ⟨_, -, _, -, -, hcovers⟩
    exact hcovers
  · intro hcovers
    obtain ⟨hx', hy'⟩ := lineCovers_bounds hcovers
    exact ⟨y, mem_around_iff.2 ⟨hy, hy'⟩, x, mem_around_iff.2 ⟨hx, hx'⟩, rfl, hcovers⟩

/-- A stroke covers what was there before. -/
theorem Shows.paintStroke (h : pic.Shows color raster) (s : Stroke) :
    pic.Shows (fun p => if s.covers p then s.color else color p)
      (s.lines.foldl (fun raster (a, b) => pic.paintLine s raster a b) raster) := by
  have hlines : ∀ line ∈ s.lines, ∀ color raster, pic.Shows color raster →
      pic.Shows (fun p => if lineCovers s.radius line.1 line.2 p then s.color else color p)
        (pic.paintLine s raster line.1 line.2) :=
    fun line _ _ _ h => h.paintLine s line.1 line.2
  refine (Shows.foldl hlines h).congr fun x _ y _ => if_congr ?_ rfl rfl
  simp [Stroke.covers]

/-- The strokes are painted in order, each over those before it. -/
theorem Shows.paintStrokes (h : pic.Shows color raster) (strokes : List Stroke) :
    pic.Shows
      (fun p => strokes.foldl (fun below s => if s.covers p then s.color else below) (color p))
      (strokes.foldl (fun raster s =>
        s.lines.foldl (fun raster (a, b) => pic.paintLine s raster a b) raster) raster) := by
  induction strokes generalizing color raster with
  | nil => exact h
  | cons s strokes ih => exact ih (h.paintStroke s)

end

/-! ## The main theorem -/

/-- A new raster is white. -/
theorem shows_blank (pic : Picture) : pic.Shows (fun _ => Color.white)
    (ByteArray.mk (Array.replicate (3 * pic.width * pic.height) 255)) := by
  refine ⟨Array.size_replicate, fun x hx y hy => ?_⟩
  have hbound := index_lt hx hy
  have hwhite : ∀ i < 3 * pic.width * pic.height,
      (Array.replicate (3 * pic.width * pic.height) (255 : UInt8))[i]? = some 255 :=
    fun i hi => by rw [Array.getElem?_replicate, if_pos hi]
  exact ⟨hwhite _ (by omega), hwhite _ (by omega), hwhite _ hbound⟩

/-- **Rasters**: the raster of a picture has the color of each of its pixels. -/
theorem shows_raster (pic : Picture) : pic.Shows pic.colorAt pic.raster :=
  (shows_blank pic).paintStrokes pic.strokes

end Picture

end GlutSketch
