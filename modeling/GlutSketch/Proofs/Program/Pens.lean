import GlutSketch.Proofs.Program.Decimal
import GlutSketch.Proofs.Program.Finite

/-!
# GlutSketch.Proofs.Program.Pens

The pens that a program sets.  The size of a pen is written with one place, so a
small one is written as a zero, which is no size.

* `Pen.IsUsable` -- a finite size of more than half of a tenth.
* `exists_pos_spells_penText_iff` -- the sizes that are written as a positive
  decimal.
* `penSizes?` -- the arguments of the calls that set pens, read from a text.
* `hasUsablePens_iff` -- the pens of a program are those of its passes.
-/

namespace GlutSketch

/-- A pen that draws with what is written of its size: the size is finite, and
it is more than half of a tenth. -/
def Pen.IsUsable (pen : Pen) : Prop := pen.size.isFinite ∧ 1 / 20 < Real64.value pen.size

namespace Program

/-! ## Sizes -/

/-- Which sizes are written as a decimal that is greater than zero. -/
theorem exists_pos_spells_penText_iff {v : Float} :
    (∃ n : ℤ, 0 < n ∧ Spells 1 n (penText v)) ↔ v.isFinite ∧ 1 / 20 < Real64.value v := by
  by_cases hfinite : v.isFinite
  · obtain ⟨negative, m, hm⟩ := Real64.isFinite_iff_ofFloat.1 hfinite
    have hunits := (m.isRounded_units 1).pos_iff (by have := m.value_nonneg; positivity)
    have hvalue : Real64.value v = if negative then -m.value else m.value := by
      rw [Real64.value, hm]
    rw [and_iff_right hfinite, hvalue]
    cases negative with
    | false =>
        have hspells := spells_fixedText hm one_pos (by simp)
        have hlt : 1 / 20 < m.value ↔ 1 / 2 < m.value * 10 ^ 1 := by
          constructor <;> intro h <;> linarith
        rw [if_neg (by simp), hlt, ← hunits]
        constructor
        · rintro ⟨n, hn, htext⟩
          rwa [htext.unique hspells, if_neg (by simp)] at hn
        · exact fun hpos => ⟨_, hpos, hspells⟩
    | true =>
        -- a minus sign stands in front of nothing that is positive
        refine iff_of_false ?_ (by have := m.value_nonneg; simp; linarith)
        rintro ⟨n, hn, whole, fraction, hwhole, -, -, -, -, htext⟩
        rw [penText, String.toList_append, fixedText_finite hm, if_neg (not_lt.2 hn.le)] at htext
        refine hwhole.head?_append_ne ('.' :: fraction ++ ['f']) ?_
        rw [← List.append_assoc, ← List.nil_append (whole ++ _ ++ _), ← htext]
        rfl
  · refine iff_of_false ?_ fun h => hfinite h.1
    rintro ⟨n, -, hspells⟩
    exact hfinite (penText_isLiteral_iff.1 (hspells.isLiteral (by decide)))

/-! ## The pens of a text -/

/-- The calls that set pens. -/
def penCalls : List String := ["glLineWidth", "glPointSize"]

/-- The sizes that a line sets; a line that cannot be read sets none. -/
def linePenSizes (cs : List Char) : List String :=
  match readLine? cs with
  | some (.call _ name args) => if name ∈ penCalls then args else []
  | _ => []

/-- The sizes that a text sets, line by line. -/
def penSizes? (text : String) : Option (List String) :=
  (splitLines? text.toList).map (·.flatMap linePenSizes)

/-- Every size of a program is a decimal with one place that is greater than
zero. -/
def HasUsablePens (program : String) : Prop :=
  ∃ sizes, penSizes? program = some sizes ∧ ∀ size ∈ sizes, ∃ n : ℤ, 0 < n ∧ Spells 1 n size

/-! ## The pens of passes -/

/-- The size that an item sets. -/
def Item.penSizes : Item → List String
  | .pass p => p.pen.toList.map fun pen => penText pen.size
  | _ => []

/-- The pens of a call are its arguments, if it sets a pen. -/
theorem linePenSizes_call {cs : List Char} {indentation : Nat} {name : String}
    {args : List String} (h : readLine? cs = some (.call indentation name args)) :
    linePenSizes cs = if name ∈ penCalls then args else [] := by
  rw [linePenSizes, h]

/-- The line of a pen sets that pen. -/
theorem linePenSizes_penLine (pen : Pen) :
    linePenSizes (penLine pen).toList = [penText pen.size] := by
  cases pen with
  | lineWidth width =>
      exact linePenSizes_call (readLine?_callLine (by decide) (by simp [penText_isWord]))
  | pointSize size =>
      exact linePenSizes_call (readLine?_callLine (by decide) (by simp [penText_isWord]))

/-- No pen is set inside a block. -/
theorem linePenSizes_blockLines (primitive : Primitive) (vertices : List Ndc) :
    (blockLines primitive vertices).flatMap (linePenSizes ·.toList) = [] := by
  have hbegin : linePenSizes (callLine "glBegin" [primitive.constant]).toList = [] :=
    linePenSizes_call (readLine?_callLine (by decide) (by simp [Primitive.constant_isWord]))
  have hend : linePenSizes (callLine "glEnd" []).toList = [] :=
    linePenSizes_call (readLine?_callLine (by decide) (by simp))
  have hvertices : ∀ v, linePenSizes (vertexLine v).toList = [] :=
    fun v => linePenSizes_call (readLine?_vertexLine v)
  rw [blockLines, List.flatMap_cons, List.flatMap_append, List.flatMap_map, hbegin]
  simp [hend, hvertices]

/-- The lines of an item set its size. -/
theorem linePenSizes_item (item : Item) :
    item.lines.flatMap (linePenSizes ·.toList) = item.penSizes := by
  cases item with
  | comment text =>
      rw [Item.lines, List.flatMap_cons, linePenSizes, readLine?_commentLine]
      rfl
  | blank => rfl
  | pass p =>
      have hcolor : linePenSizes (colorLine p.color).toList = [] :=
        linePenSizes_call (readLine?_colorLine p.color)
      rw [Item.lines, passLines, List.flatMap_cons, hcolor, List.flatMap_append,
        linePenSizes_blockLines, List.flatMap_map, Item.penSizes, List.map_eq_flatMap]
      simp only [linePenSizes_penLine, List.nil_append, List.append_nil]

/-! ## Whole programs -/

/-- Only calls that draw set pens. -/
theorem linePenSizes_of_isQuiet {cs : List Char} (h : IsQuiet cs) : linePenSizes cs = [] := by
  have hcalls : ∀ name ∈ penCalls, name ∈ drawingCalls := by simp [penCalls, drawingCalls]
  unfold linePenSizes
  unfold IsQuiet at h
  split
  · rename_i hread
    rw [hread] at h
    exact if_neg fun hname => h (hcalls _ hname)
  · rfl

/-- The pens of a program are usable exactly if those of its passes are. -/
theorem hasUsablePens_iff {items : List Item} (h : ∀ item ∈ items, item.OnLines) :
    HasUsablePens (header ++ bodyText items ++ footer) ↔
      ∀ p, Item.pass p ∈ items → ∀ pen ∈ p.pen, pen.IsUsable := by
  have hsizes : penSizes? (header ++ bodyText items ++ footer) =
      some (items.flatMap Item.penSizes) := by
    have hcollect := collect_program (fun _ => linePenSizes_of_isQuiet) h
    simp only [linePenSizes_item] at hcollect
    exact hcollect
  unfold HasUsablePens
  rw [hsizes]
  simp only [Option.some.injEq, exists_eq_left', List.forall_mem_flatMap]
  constructor
  · intro hall p hp pen hpen
    refine exists_pos_spells_penText_iff.1 (hall (.pass p) hp _ ?_)
    exact List.mem_map_of_mem (Option.mem_toList.2 hpen)
  · intro hall item hitem
    cases item with
    | comment text => simp [Item.penSizes]
    | blank => simp [Item.penSizes]
    | pass p =>
        refine List.forall_mem_map.2 fun pen hpen => exists_pos_spells_penText_iff.2 ?_
        exact hall p hitem pen (Option.mem_toList.1 hpen)

end Program

end GlutSketch
