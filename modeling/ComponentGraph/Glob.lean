/-!
Glob patterns over whole texts. A `?` stands for one character, a `*` for any run of characters,
slashes included, and `[...]` or `[!...]` for one character in or out of a set. Two stars stand for
any number of whole path components and have to be a component themselves. `compile?` reads a
pattern and says where it is wrong; `accepts` decides a text by keeping, token after token, the
rests that may still have to be matched.
-/

set_option autoImplicit false
set_option relaxedAutoImplicit false

namespace ComponentGraph.Glob

/-- A range of characters inside brackets; a single character is a range of one. -/
structure Range where
  low : Char
  high : Char
  deriving Repr, DecidableEq

/-- One element of a pattern. -/
inductive Token where
  | literal (character : Char)
  | anyCharacter
  | anyRun
  | anyComponents
  | within (ranges : List Range)
  | outside (ranges : List Range)
  deriving Repr, DecidableEq

/-- A compiled pattern. -/
structure Pattern where
  tokens : List Token
  deriving Repr, DecidableEq

/-! ### Reading a pattern -/

/-- Why a pattern cannot be read. -/
inductive Complaint where
  | tooManyStars
  | partialComponent
  | openRange
  deriving Repr, DecidableEq

/-- A complaint and the place in the pattern, in characters, that it is about. -/
structure Failure where
  place : Nat
  complaint : Complaint
  deriving Repr, DecidableEq

/-- The wording of a complaint. -/
def Complaint.message : Complaint → String
  | .tooManyStars => "wildcards are either regular `*` or recursive `**`"
  | .partialComponent => "recursive wildcards must form a single path component"
  | .openRange => "invalid range pattern"

/-- The wording of a failure. -/
def Failure.message (failure : Failure) : String :=
  "Pattern syntax error near position " ++ toString failure.place ++ ": " ++
    failure.complaint.message

/-- The ranges written between two brackets. A dash with a character on both sides makes a range of
more than one. -/
def ranges : List Char → List Range
  | low :: '-' :: high :: rest => ⟨low, high⟩ :: ranges rest
  | single :: rest => ⟨single, single⟩ :: ranges rest
  | [] => []

/-- The characters of a set, up to the bracket that closes it, and what follows. The first character
belongs to the set even if it is the closing bracket. -/
def closing : List Char → Option (List Char × List Char)
  | [] => none
  | first :: rest =>
      match rest.span (fun character ↦ character != ']') with
      | (_, []) => none
      | (members, _ :: later) => some (first :: members, later)

/-- A bracketed set after its opening bracket, and what follows. -/
def bracketed : List Char → Option (Token × List Char)
  | '!' :: rest => (closing rest).map (fun (members, later) ↦ (.outside (ranges members), later))
  | rest => (closing rest).map (fun (members, later) ↦ (.within (ranges members), later))

/-- A new component wildcard says nothing more when one stands right before it, except as the second
token of the pattern. The tokens so far come latest first. -/
def pushComponents (latest : List Token) : List Token :=
  match latest with
  | .anyComponents :: _ :: _ => latest
  | _ => .anyComponents :: latest

/-- Reads the rest of a pattern. `place` counts the characters read, `before` is the last of them
and `latest` holds the tokens so far, latest first. Each step reads at least one character, so the
length of the pattern is enough fuel. -/
def compileFrom : Nat → Nat → Option Char → List Token → List Char → Except Failure Pattern
  | 0, _, _, latest, _ => .ok ⟨latest.reverse⟩
  | _, _, _, latest, [] => .ok ⟨latest.reverse⟩
  | fuel + 1, place, _, latest, '?' :: rest =>
      compileFrom fuel (place + 1) (some '?') (.anyCharacter :: latest) rest
  | _, place, _, _, '*' :: '*' :: '*' :: _ => .error ⟨place + 2, .tooManyStars⟩
  | fuel + 1, place, before, latest, '*' :: '*' :: rest =>
      if place == 0 || before == some '/' then
        match rest with
        | [] => compileFrom fuel (place + 2) (some '*') (pushComponents latest) []
        | '/' :: later => compileFrom fuel (place + 3) (some '/') (pushComponents latest) later
        | _ => .error ⟨place + 2, .partialComponent⟩
      else .error ⟨place - 1, .partialComponent⟩
  | fuel + 1, place, _, latest, '*' :: rest =>
      compileFrom fuel (place + 1) (some '*') (.anyRun :: latest) rest
  | fuel + 1, place, _, latest, '[' :: rest =>
      match bracketed rest with
      | some (token, later) =>
          compileFrom fuel (place + 1 + (rest.length - later.length)) (some ']')
            (token :: latest) later
      | none => .error ⟨place, .openRange⟩
  | fuel + 1, place, _, latest, character :: rest =>
      compileFrom fuel (place + 1) (some character) (.literal character :: latest) rest

/-- The pattern that a text writes. -/
def compile? (text : String) : Except Failure Pattern :=
  compileFrom text.toList.length 0 none [] text.toList

/-! ### Matching -/

/-- Whether a character lies in one of the ranges. -/
def isWithin (ranges : List Range) (character : Char) : Bool :=
  ranges.any (fun range ↦ decide (range.low ≤ character) && decide (character ≤ range.high))

/-- All rests of a list, the whole list first and the empty one last. -/
def rests : List Char → List (List Char)
  | [] => [[]]
  | character :: rest => (character :: rest) :: rests rest

/-- The rests that follow a slash, and the empty rest. -/
def componentRests : List Char → List (List Char)
  | [] => [[]]
  | character :: rest =>
      if character = '/' then rest :: componentRests rest else componentRests rest

/-- What is left of a rest after one character that passes the test. -/
def afterOne (test : Char → Bool) : List Char → Option (List Char)
  | [] => none
  | character :: rest => if test character then some rest else none

/-- What is left after one more token, of the rests left so far, the longest first. -/
def Token.advance (token : Token) (live : List (List Char)) : List (List Char) :=
  match token with
  | .literal expected => live.filterMap (afterOne (fun character ↦ character == expected))
  | .anyCharacter => live.filterMap (afterOne (fun _ ↦ true))
  | .within ranges => live.filterMap (afterOne (isWithin ranges))
  | .outside ranges => live.filterMap (afterOne (fun character ↦ !isWithin ranges character))
  | .anyRun =>
      match live with
      | [] => []
      | longest :: _ => rests longest
  | .anyComponents =>
      match live with
      | [] => []
      | longest :: _ =>
          longest :: componentRests longest

/-- Whether the whole text is of the pattern's form. -/
def Pattern.accepts (pattern : Pattern) (text : String) : Bool :=
  (pattern.tokens.foldl (fun live token ↦ token.advance live) [text.toList]).any List.isEmpty

end ComponentGraph.Glob
