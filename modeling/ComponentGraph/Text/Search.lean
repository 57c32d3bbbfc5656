/-!
Looking for one text inside another: at its beginning, at its end, or anywhere.
-/

set_option autoImplicit false
set_option relaxedAutoImplicit false

namespace ComponentGraph.Text.Search

/-- Whether the pattern stands somewhere in the characters. -/
def occursIn (pattern : List Char) : List Char → Bool
  | [] => pattern.isEmpty
  | character :: rest =>
      pattern.isPrefixOf (character :: rest) || occursIn pattern rest

/-- Whether the text has the pattern as a part. -/
def contains (text pattern : String) : Bool :=
  occursIn pattern.toList text.toList

/-- Whether the text begins with the pattern. -/
def beginsWith (text pattern : String) : Bool :=
  pattern.toList.isPrefixOf text.toList

/-- Whether the text ends with the pattern. -/
def endsWith (text pattern : String) : Bool :=
  pattern.toList.isSuffixOf text.toList

end ComponentGraph.Text.Search
