import ComponentGraph.Text.Search
import ComponentGraph.Text.Uppercase

/-!
Names are judged by their spelling alone. A name that begins with an upper-case character looks
like a component, one that begins with `use` like a hook, one written in capitals like a constant.
`isSignificant` says which names deserve a node of the graph, `kind` puts a name in its category,
and `declaresFunction` says which function names count as declarations.
-/

set_option autoImplicit false
set_option relaxedAutoImplicit false

namespace ComponentGraph.Name

open Text.Search

/-- The category of a node. -/
inductive Kind where
  | component
  | hook
  | util
  | constant
  deriving Repr, DecidableEq, Inhabited

namespace Kind

/-- All categories, in the order in which they are listed. -/
def all : List Kind := [.component, .hook, .util, .constant]

/-- Nodes of a lower rank come first. -/
def rank : Kind → Nat
  | .component => 0
  | .hook => 1
  | .util => 2
  | .constant => 3

/-- The written form of a category. -/
def label : Kind → String
  | .component => "component"
  | .hook => "hook"
  | .util => "util"
  | .constant => "constant"

/-- The category with this written form. -/
def ofLabel? (text : String) : Option Kind :=
  all.find? (fun kind ↦ kind.label == text)

end Kind

/-! ### Spelling -/

/-- The first character is its own upper-case form. Signs and scripts without case count as upper
case, so `$store` and `_private` do too. -/
def startsUppercase (name : String) : Bool :=
  match name.toList with
  | [] => false
  | first :: _ => Text.Uppercase.ofChar first == [first]

/-- Parts of a name that mark an architectural role, whatever the rest looks like. -/
def roleMarkers : List String := ["Service", "Manager", "Factory"]

/-! ### Judgement -/

/-- Whether a name deserves a node: at least three characters, and spelled like a component, like a
hook of more than four characters, or with a role marker. -/
def isSignificant (name : String) : Bool :=
  name.toList.length > 2 &&
    ((startsUppercase name && !contains name "_" && !beginsWith name "USE_" &&
        !endsWith name "_TYPE") ||
      (beginsWith name "use" && name.toList.length > 4) ||
      roleMarkers.any (contains name))

/-- The category of a name. -/
def kind (name : String) : Kind :=
  if startsUppercase name && !contains name "_" then .component
  else if beginsWith name "use" then .hook
  else if name == Text.Uppercase.ofString name then .constant
  else .util

/-- Whether a function of this name is a declaration: it has to be significant and begin like a
component or a hook. -/
def declaresFunction (name : String) : Bool :=
  (startsUppercase name || beginsWith name "use") && isSignificant name

end ComponentGraph.Name
