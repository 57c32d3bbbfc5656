/-!
A property of characters is written as an ascending table of code-point ranges, both ends
included. `covers` looks a code point up in such a table.
-/

set_option autoImplicit false
set_option relaxedAutoImplicit false

namespace ComponentGraph.Text.CodeRange

/-- Whether one of the ascending ranges holds the code point. The search stops at the first range
that begins above it. -/
def covers : List (Nat × Nat) → Nat → Bool
  | [], _ => false
  | (first, last) :: later, code =>
      if code < first then false
      else if code ≤ last then true
      else covers later code

end ComponentGraph.Text.CodeRange
