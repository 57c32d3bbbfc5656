/-!
Text for terminals that may be coloured. A painted text stands between a sequence that sets its
colours and one that resets them; where the text itself resets, the colours are set again. Without
colours a painted text is the text.
-/

set_option autoImplicit false
set_option relaxedAutoImplicit false

namespace ComponentGraph.Text.Paint

/-- How a text may look. -/
inductive Look where
  | bold
  | dimmed
  | red
  | green
  | yellow
  | blue
  | magenta
  | cyan
  deriving Repr, DecidableEq

/-- The number of a look. -/
def Look.code : Look → Nat
  | .bold => 1
  | .dimmed => 2
  | .red => 31
  | .green => 32
  | .yellow => 33
  | .blue => 34
  | .magenta => 35
  | .cyan => 36

/-- The character that begins a sequence. -/
def introducer : Char := Char.ofNat 0x1B

/-- The sequence that sets looks. -/
def opening (looks : List Look) : List Char :=
  [introducer, '['] ++ (";".intercalate (looks.map (fun look ↦ toString look.code))).toList ++ ['m']

/-- The sequence that resets all looks. -/
def reset : List Char := [introducer, '[', '0', 'm']

/-- The characters with the looks set again behind every reset. -/
def reopen (looks : List Look) : List Char → List Char
  | [] => []
  | '\x1b' :: '[' :: '0' :: 'm' :: rest => reset ++ opening looks ++ reopen looks rest
  | character :: rest => character :: reopen looks rest

/-- A text with looks, if colours are on. -/
def paint (colours : Bool) (looks : List Look) (text : String) : String :=
  if colours then String.ofList (opening looks ++ reopen looks text.toList ++ reset) else text

end ComponentGraph.Text.Paint
