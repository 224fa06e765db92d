/-!
Contract: membership of code points in lists of closed ranges.

Owns: `rangesOf`, the ranges of a table that is written as gaps and lengths, and `inRanges`, the
one test that the property tables of this folder share.

Does not own: any table.
-/

namespace TypedMarkup.Text

/-- The closed ranges of a table. By turns it says how many code points are left out and how many
are in. -/
def rangesOf (start : Nat) : List Nat → List (Nat × Nat)
  | gap :: length :: rest =>
    (start + gap, start + gap + length - 1) :: rangesOf (start + gap + length) rest
  | _ => []

def inRanges (ranges : List (Nat × Nat)) (code : Nat) : Bool :=
  ranges.any fun range => range.1 ≤ code && code ≤ range.2

end TypedMarkup.Text
