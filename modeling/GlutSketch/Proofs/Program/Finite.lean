import GlutSketch.Proofs.Drawing.Finite
import GlutSketch.Proofs.Program.Lines

/-!
# GlutSketch.Proofs.Program.Finite

The numbers of a program are literals exactly if the passes it was made from
have finite numbers only.

* `fixed3_isLiteral_iff`, `penText_isLiteral_iff` -- a number and its spelling.
* `numbers?` -- the arguments of the calls that take numbers, read from a text.
* `numbers?_program` -- those of a program are those of its passes, in order.
* `hasFiniteNumbers_iff` -- a text of finite numbers comes from finite passes.
-/

namespace GlutSketch

/-! ## Spellings -/

/-- Only a finite double has a point in its spelling. -/
theorem fixedText_isLiteral_iff {x : Float} {places : Nat} (hplaces : 0 < places) :
    IsLiteral (fixedText places x ++ "f") ↔ x.isFinite := by
  rw [Real64.isFinite_iff_ofFloat]
  constructor
  · intro h
    refine Classical.byContradiction fun hfinite => ?_
    have hpoint := h.point_mem
    have hx : ∀ negative m, Binary64.ofFloat x ≠ .finite negative m :=
      fun negative m hvalue => hfinite ⟨negative, m, hvalue⟩
    obtain htext | htext | htext := fixedText_not_finite hx places
    · rw [htext] at hpoint
      exact absurd hpoint (by decide)
    · rw [htext] at hpoint
      exact absurd hpoint (by decide)
    · rw [htext] at hpoint
      exact absurd hpoint (by decide)
  · rintro ⟨negative, m, hx⟩
    exact fixedText_isLiteral hx hplaces

namespace Program

theorem isLiteral_zero : IsLiteral "0.000f" := by
  have hwhole : AreDigits ['0'] := ⟨by simp, by simp⟩
  have hfraction : AreDigits ['0', '0', '0'] := ⟨by simp, by simp⟩
  exact ⟨_, ⟨_, _, hwhole, hfraction, rfl⟩, .inl rfl⟩

/-- Moving a half of a thousandth keeps a number finite, since only small
numbers have an odd number of sixteenths. -/
theorem isFinite_thousandths {v : Float} (h : Real64.IsOddWhole (v * 16)) :
    (Real64.round (v * 1000) / 1000).isFinite := by
  have hv := Real64.ulpLe_of_isOddWhole h
  have hthousand : Real64.UlpLe (-43) 1000 := by decide +kernel
  have hdivisor : Real64.TwoPowLe 9 1000 := by decide +kernel
  have hproduct : Real64.UlpLe (7 : Nat) (v * 1000) :=
    Real64.UlpLe.mul hv hthousand (by decide) (by decide) (by decide)
  have hround := Real64.ulpLe_round hproduct (by decide)
  exact (Real64.UlpLe.div (l := 64) hround hdivisor (by decide) (by decide) (by decide)).isFinite

/-- A coordinate is written as a literal exactly if it is finite. -/
theorem fixed3_isLiteral_iff {v : Float} : IsLiteral (fixed3 v) ↔ v.isFinite := by
  unfold fixed3
  split
  · rename_i hsmall
    exact iff_of_true isLiteral_zero (Real64.isFinite_of_abs_lt hsmall)
  · split
    · rename_i hodd
      have hv := (Real64.ulpLe_of_isOddWhole hodd).isFinite
      exact iff_of_true ((fixedText_isLiteral_iff (by decide)).2 (isFinite_thousandths hodd)) hv
    · exact fixedText_isLiteral_iff (by decide)

theorem penText_isLiteral_iff {v : Float} : IsLiteral (penText v) ↔ v.isFinite :=
  fixedText_isLiteral_iff (by decide)

/-! ## The numbers of a text -/

/-- The calls that take numbers for drawing. -/
def numericCalls : List String := ["glVertex2f", "glColor3f", "glLineWidth", "glPointSize"]

/-- The numbers of a line. -/
def Line.numbers : Line → List String
  | .call _ name args => if name ∈ numericCalls then args else []
  | _ => []

/-- The numbers of a line, if it can be read; a line of another form has
none. -/
def lineNumbers (cs : List Char) : List String := ((readLine? cs).map Line.numbers).getD []

/-- The numbers of a text, line by line. -/
def numbers? (text : String) : Option (List String) :=
  (splitLines? text.toList).map (·.flatMap lineNumbers)

/-- Every number of a program is a literal of a finite number. -/
def HasFiniteNumbers (program : String) : Prop :=
  ∃ numbers, numbers? program = some numbers ∧ ∀ number ∈ numbers, IsLiteral number

/-! ## The numbers of passes -/

/-- The numbers of a pass in the order of its lines. -/
def passNumbers (p : Pass) : List String :=
  [fixed3 p.color.red, fixed3 p.color.green, fixed3 p.color.blue] ++
    p.pen.toList.map (fun pen => penText pen.size) ++
    p.vertices.flatMap fun v => [fixed3 v.x, fixed3 v.y]

/-- The numbers of an item. -/
def Item.numbers : Item → List String
  | .pass p => passNumbers p
  | _ => []

/-- A pass is written with literals exactly if all its numbers are finite. -/
theorem isLiteral_passNumbers_iff {p : Pass} :
    (∀ number ∈ passNumbers p, IsLiteral number) ↔ p.IsFinite := by
  simp only [passNumbers, List.forall_mem_append, List.forall_mem_cons, List.forall_mem_map,
    List.forall_mem_flatMap, fixed3_isLiteral_iff, penText_isLiteral_iff, Option.mem_toList]
  constructor
  · rintro ⟨⟨⟨hred, hgreen, hblue, -⟩, hpen⟩, hvertices⟩
    exact ⟨⟨hred, hgreen, hblue⟩, hpen, fun v hv => ⟨(hvertices v hv).1, (hvertices v hv).2.1⟩⟩
  · intro h
    refine ⟨⟨⟨h.color.1, h.color.2.1, h.color.2.2, by simp⟩, h.pen⟩, fun v hv => ?_⟩
    exact ⟨(h.vertices v hv).1, (h.vertices v hv).2, by simp⟩

/-- The numbers of a line are those of the call in it. -/
theorem lineNumbers_of_readLine? {cs : List Char} {line : Line} (h : readLine? cs = some line) :
    lineNumbers cs = line.numbers := by
  rw [lineNumbers, h]
  rfl

theorem lineNumbers_penLine (pen : Pen) :
    lineNumbers (penLine pen).toList = [penText pen.size] := by
  cases pen with
  | lineWidth width =>
      exact lineNumbers_of_readLine? (readLine?_callLine (by decide) (by simp [penText_isWord]))
  | pointSize size =>
      exact lineNumbers_of_readLine? (readLine?_callLine (by decide) (by simp [penText_isWord]))

/-- The numbers of a block are the coordinates of its vertices. -/
theorem lineNumbers_blockLines (primitive : Primitive) (vertices : List Ndc) :
    (blockLines primitive vertices).flatMap (lineNumbers ·.toList) =
      vertices.flatMap fun v => [fixed3 v.x, fixed3 v.y] := by
  have hbegin : lineNumbers (callLine "glBegin" [primitive.constant]).toList = [] :=
    lineNumbers_of_readLine? (readLine?_callLine (by decide) (by simp [Primitive.constant_isWord]))
  have hend : lineNumbers (callLine "glEnd" []).toList = [] :=
    lineNumbers_of_readLine? (readLine?_callLine (by decide) (by simp))
  have hvertices : ∀ v, lineNumbers (vertexLine v).toList = [fixed3 v.x, fixed3 v.y] :=
    fun v => lineNumbers_of_readLine? (readLine?_vertexLine v)
  rw [blockLines, List.flatMap_cons, List.flatMap_append, List.flatMap_map, hbegin]
  simp [hend, hvertices]

/-- The lines of an item have its numbers. -/
theorem lineNumbers_item (item : Item) :
    item.lines.flatMap (lineNumbers ·.toList) = item.numbers := by
  cases item with
  | comment text =>
      have hcomment := lineNumbers_of_readLine? (readLine?_commentLine text)
      rw [Item.lines, List.flatMap_cons, hcomment]
      rfl
  | blank => rfl
  | pass p =>
      have hcolor := lineNumbers_of_readLine? (readLine?_colorLine p.color)
      have hpen : p.pen.toList.flatMap (fun pen => lineNumbers (penLine pen).toList) =
          p.pen.toList.map fun pen => penText pen.size := by
        rw [List.map_eq_flatMap]
        simp only [lineNumbers_penLine]
      rw [Item.lines, passLines, List.flatMap_cons, hcolor, List.flatMap_append,
        lineNumbers_blockLines, List.flatMap_map, hpen, ← List.append_assoc]
      rfl

/-! ## Whole programs -/

/-- Only calls that draw have numbers. -/
theorem lineNumbers_of_isQuiet {cs : List Char} (h : IsQuiet cs) : lineNumbers cs = [] := by
  have hcalls : ∀ name ∈ numericCalls, name ∈ drawingCalls := by decide
  unfold lineNumbers
  unfold IsQuiet at h
  cases hread : readLine? cs with
  | none => rfl
  | some line =>
      cases line with
      | blank => rfl
      | comment text => rfl
      | call indentation name args =>
          rw [hread] at h
          exact if_neg fun hname => h (hcalls name hname)

/-- The numbers of a program are those of its items. -/
theorem numbers?_program {items : List Item} (h : ∀ item ∈ items, item.OnLines) :
    numbers? (header ++ bodyText items ++ footer) = some (items.flatMap Item.numbers) := by
  have hcollect := collect_program (fun _ => lineNumbers_of_isQuiet) h
  simp only [lineNumbers_item] at hcollect
  exact hcollect

/-- **Finite numbers**: the numbers of a program are literals exactly if its
passes are finite. -/
theorem hasFiniteNumbers_iff {items : List Item} (h : ∀ item ∈ items, item.OnLines) :
    HasFiniteNumbers (header ++ bodyText items ++ footer) ↔
      ∀ p, Item.pass p ∈ items → p.IsFinite := by
  unfold HasFiniteNumbers
  rw [numbers?_program h]
  simp only [Option.some.injEq, exists_eq_left', List.forall_mem_flatMap]
  constructor
  · intro hall p hp
    exact isLiteral_passNumbers_iff.1 (hall (.pass p) hp)
  · intro hall item hitem
    cases item with
    | comment text => simp [Item.numbers]
    | blank => simp [Item.numbers]
    | pass p => exact isLiteral_passNumbers_iff.2 (hall p hitem)

end Program

end GlutSketch
