/-!
# Columns

A column is filled up with spaces on the right; a text that is too long keeps its length.
-/

namespace Neighbor.Text

/-- `cs` with spaces behind it up to `width` characters. -/
def padded (width : Nat) (cs : List Char) : List Char :=
  cs ++ List.replicate (width - cs.length) ' '

/-- A text that fits its column fills it. -/
theorem length_padded {width : Nat} {cs : List Char} (h : cs.length ≤ width) :
    (padded width cs).length = width := by
  simp [padded]
  omega

end Neighbor.Text
