/-!
# GlutSketch.Text.WhiteSpace

The characters with the Unicode property `White_Space`: the ASCII blanks and
line ends, the no-break space, the spaces of fixed width and the line and
paragraph separators, twenty-five in all.
-/

namespace GlutSketch

/-- The ranges of code points with the property `White_Space`, in increasing
order. -/
def whiteSpaceRanges : List (Nat × Nat) :=
  [(0x0009, 0x000D), (0x0020, 0x0020), (0x0085, 0x0085), (0x00A0, 0x00A0), (0x1680, 0x1680),
    (0x2000, 0x200A), (0x2028, 0x2029), (0x202F, 0x202F), (0x205F, 0x205F), (0x3000, 0x3000)]

/-- A white space character. -/
def isWhiteSpace (c : Char) : Bool :=
  whiteSpaceRanges.any fun (first, last) => first ≤ c.toNat && c.toNat ≤ last

end GlutSketch
