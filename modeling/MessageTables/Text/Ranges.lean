/-!
# Ranges of code points

A property of characters is kept as the list of the closed ranges of code
points that have it, ascending and apart.
-/

namespace MessageTables.Text

/-- Whether a code point lies in one of some ascending ranges. -/
def inRanges : List (Nat × Nat) → Nat → Bool
  | [], _ => false
  | (first, last) :: rest, code =>
      if code < first then false
      else if code ≤ last then true
      else inRanges rest code

end MessageTables.Text
