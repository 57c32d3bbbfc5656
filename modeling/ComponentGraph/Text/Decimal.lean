/-!
Decimal text of a floating point number: the fewest digits that still single the number out among
all numbers of its format, and of those the nearest. A number is taken apart into a whole number
times a power of two, so everything below is arithmetic with whole numbers. `Style` holds the
choices of a written form: which magnitudes are written out by position and how an exponent is
written.
-/

set_option autoImplicit false
set_option relaxedAutoImplicit false

namespace ComponentGraph.Text.Decimal

/-- A positive number as a quotient. -/
structure Quotient where
  numerator : Nat
  denominator : Nat
  deriving Repr, DecidableEq

/-- A whole number times a power of two. -/
def scaled (whole : Nat) (power : Int) : Quotient :=
  if power < 0 then ⟨whole, Nat.pow 2 power.natAbs⟩
  else ⟨whole * Nat.pow 2 power.natAbs, 1⟩

/-- A whole number times a power of ten. -/
def decimal (whole : Nat) (power : Int) : Quotient :=
  if power < 0 then ⟨whole, Nat.pow 10 power.natAbs⟩
  else ⟨whole * Nat.pow 10 power.natAbs, 1⟩

/-- Whether the first quotient is less than the second. -/
def Quotient.less (first second : Quotient) : Bool :=
  decide (first.numerator * second.denominator < second.numerator * first.denominator)

/-- The distance between two quotients. -/
def Quotient.distance (first second : Quotient) : Quotient :=
  let left := first.numerator * second.denominator
  let right := second.numerator * first.denominator
  ⟨(left - right) + (right - left), first.denominator * second.denominator⟩

/-- A floating point number other than zero, infinity and the undefined value, without its sign:
`mantissa` times two to the `power`. -/
structure Binary where
  mantissa : Nat
  power : Int
  deriving Repr, DecidableEq

/-- The least mantissa of a number that is not close to zero: two to the power of fifty-two, and the
place value of the exponent among the bits of a number. -/
def leadingBit : Nat := 4503599627370496

/-- The place value of the sign among the bits of a number. -/
def signBit : Nat := 9223372036854775808

/-- The number with these bits, sign left out; eleven bits hold its exponent. -/
def Binary.ofBits (bits : Nat) : Binary :=
  let fraction : Nat := bits % leadingBit
  let exponent : Nat := bits / leadingBit % 2048
  if exponent = 0 then ⟨fraction, -1074⟩ else ⟨fraction + leadingBit, (exponent : Int) - 1075⟩

/-- The value of a number. -/
def Binary.value (number : Binary) : Quotient :=
  scaled number.mantissa number.power

/-- The point halfway to the next number above. -/
def Binary.above (number : Binary) : Quotient :=
  scaled (2 * number.mantissa + 1) (number.power - 1)

/-- The point halfway to the next number below, which is nearer at a power of two. -/
def Binary.below (number : Binary) : Quotient :=
  if number.mantissa = leadingBit && decide (-1074 < number.power) then
    scaled (4 * number.mantissa - 1) (number.power - 2)
  else scaled (2 * number.mantissa - 1) (number.power - 1)

/-- Whether a decimal is read back as this number. The halfway points belong to the number with the
even mantissa. -/
def Binary.owns (number : Binary) (candidate : Quotient) : Bool :=
  if number.mantissa % 2 = 0 then
    !candidate.less number.below && !number.above.less candidate
  else number.below.less candidate && candidate.less number.above

/-- The largest power of ten that is not above the quotient, looked for downwards. -/
def leadingPower (quotient : Quotient) : Nat → Int → Int
  | 0, power => power
  | fuel + 1, power =>
      if quotient.less (decimal 1 power) then leadingPower quotient fuel (power - 1) else power

/-- Digits as a whole number, times ten to the `power`. -/
structure Digits where
  whole : Nat
  power : Int
  deriving Repr, DecidableEq

/-- The best decimal with its last digit at this power of ten, if one is read back as the number. -/
def atPower (number : Binary) (power : Int) : Option Digits :=
  let unit := decimal 1 power
  let lower :=
    number.value.numerator * unit.denominator / (number.value.denominator * unit.numerator)
  let reading (whole : Nat) : Bool := number.owns (decimal whole power)
  let distance (whole : Nat) : Quotient := (decimal whole power).distance number.value
  match reading lower, reading (lower + 1) with
  | true, true =>
      if (distance (lower + 1)).less (distance lower) then some ⟨lower + 1, power⟩
      else some ⟨lower, power⟩
  | true, false => some ⟨lower, power⟩
  | false, true => some ⟨lower + 1, power⟩
  | false, false => none

/-- The shortest decimal that is read back as the number: last digits are tried from the leading
power of ten downwards, and the seventeenth always succeeds. -/
def shortestFrom (number : Binary) : Nat → Int → Digits
  | 0, power => ⟨0, power⟩
  | fuel + 1, power =>
      match atPower number power with
      | some digits => digits
      | none => shortestFrom number fuel (power - 1)

/-- The shortest decimal of a number. -/
def shortest (number : Binary) : Digits :=
  shortestFrom number 18 (leadingPower number.value 640 309)

/-! ### Written form -/

/-- The choices of a written form. Leading powers of ten from `lowest` to `highest` are written by
position, with at least one digit after the point; all others with an exponent. -/
structure Style where
  lowest : Int
  highest : Int
  point : String
  mark : String
  plus : String
  minus : String

/-- The text of digits in a style. -/
def Digits.render (style : Style) (digits : Digits) : String :=
  let all := Nat.toDigits 10 digits.whole
  let kept := (all.reverse.dropWhile (fun digit ↦ digit == '0')).reverse
  let leading := digits.power + (all.length : Int) - 1
  let zeros (count : Nat) : List Char := List.replicate count '0'
  if decide (style.lowest ≤ leading) && decide (leading ≤ style.highest) then
    if leading < 0 then
      "0" ++ style.point ++ String.ofList (zeros (leading.natAbs - 1) ++ kept)
    else
      let before := leading.natAbs + 1
      let whole := kept.take before ++ zeros (before - kept.length)
      let after := kept.drop before
      String.ofList whole ++ style.point ++ String.ofList (if after.isEmpty then ['0'] else after)
  else
    let fraction := kept.drop 1
    String.ofList (kept.take 1) ++
      (if fraction.isEmpty then "" else style.point ++ String.ofList fraction) ++
      style.mark ++ (if leading < 0 then style.minus else style.plus) ++ toString leading.natAbs

/-- The text of a finite floating point number in a style. -/
def render (style : Style) (value : Float) : String :=
  let bits := value.toBits.toNat
  let sign := if bits / signBit = 1 then style.minus else ""
  if bits % signBit = 0 then sign ++ "0" ++ style.point ++ "0"
  else sign ++ (shortest (Binary.ofBits (bits % signBit))).render style

end ComponentGraph.Text.Decimal
