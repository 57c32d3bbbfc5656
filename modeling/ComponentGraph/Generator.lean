/-!
A generator of pseudo-random numbers with sixty-four bits of state. The state moves by a fixed
stride; a number is drawn by multiplying the state with a scrambled copy of itself and folding the
two halves of the product together. Numbers up to a bound are drawn without bias: the few draws that
would favour some of them are thrown away.
-/

set_option autoImplicit false
set_option relaxedAutoImplicit false

namespace ComponentGraph

/-- A generator. -/
structure Generator where
  state : UInt64
  deriving Repr, DecidableEq

namespace Generator

/-- How far the state moves with each draw. -/
def stride : UInt64 := 0x2d358dccaa6c78a5

/-- What the state is scrambled with. -/
def scramble : UInt64 := 0x8bb84b93962eacc9

/-- How many states there are: as many as numbers of sixty-four bits. -/
def period : Nat := 18446744073709551616

/-- The upper half of the product of two numbers of sixty-four bits. -/
def upperProduct (first second : UInt64) : UInt64 :=
  UInt64.ofNat (first.toNat * second.toNat / period)

/-- Draws a number of sixty-four bits. -/
def next (generator : Generator) : UInt64 × Generator :=
  let state := generator.state + stride
  let scrambled := state ^^^ scramble
  ((state * scrambled) ^^^ upperProduct state scrambled, ⟨state⟩)

/-- Draws until the lower half of the draw times the bound is not below the threshold. The state
returns to where it was after as many draws as there are states, so that many are enough. -/
def belowFrom (bound threshold : UInt64) : Nat → Generator → UInt64 × Generator
  | 0, generator => (0, generator)
  | fuel + 1, generator =>
      let (draw, later) := generator.next
      if draw * bound < threshold then belowFrom bound threshold fuel later
      else (upperProduct draw bound, later)

/-- Draws a number below a bound, all of them equally likely. -/
def below (bound : UInt64) (generator : Generator) : UInt64 × Generator :=
  belowFrom bound ((0 - bound) % bound) period generator

/-- Draws a number from one to `most`. -/
def upTo (most : Nat) (generator : Generator) : Nat × Generator :=
  let drawn := generator.below (UInt64.ofNat most)
  (drawn.1.toNat + 1, drawn.2)

end Generator

end ComponentGraph
