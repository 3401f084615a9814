/-!
# Decimal texts of doubles

How doubles are written and read in decimal digits, in exact arithmetic.
-/

set_option autoImplicit false

/-!
## Doubles as binary fractions

The magnitude of a finite double is `mantissa * 2 ^ exponent`. Decimal texts are chosen and read in
exact arithmetic on such fractions.
-/

namespace TilePyramid.Decimal

/-- The magnitude `mantissa * 2 ^ exponent` of a finite double. -/
structure Binary where
  mantissa : Nat
  exponent : Int
deriving DecidableEq

def leastExponent : Int := -1074

/-- The mantissa at which normal doubles start. -/
def normalMantissa : Nat := Nat.pow 2 52

/-- The bits of a double without its sign. -/
def magnitudeBits (value : Float) : Nat := value.toBits.toNat % Nat.pow 2 63

def isNegative (value : Float) : Bool := Nat.pow 2 63 ≤ value.toBits.toNat

/-- The magnitude bits of infinity; larger ones are no numbers. -/
def infinityBits : Nat := 2047 * normalMantissa

/-- The fraction that magnitude bits below those of infinity stand for. -/
def Binary.ofBits (bits : Nat) : Binary :=
  let field := bits / normalMantissa
  let fraction := bits % normalMantissa
  if field = 0 then ⟨fraction, leastExponent⟩
  else ⟨normalMantissa + fraction, leastExponent + (field - 1 : Nat)⟩

/-- The magnitude bits of a fraction whose mantissa is at most `2 ^ 53`, and at least `2 ^ 52`
unless its exponent is the least one. Fractions too large for a double give infinity. -/
def Binary.toBits (fraction : Binary) : Nat :=
  let field := (fraction.exponent - leastExponent).toNat
  min infinityBits (field * normalMantissa + fraction.mantissa)

/-- Divides and rounds to the nearest integer, a half to the even one. -/
def divideToEven (numerator denominator : Nat) : Nat :=
  let quotient := numerator / denominator
  let twice := 2 * (numerator % denominator)
  if twice < denominator ∨ (twice = denominator ∧ quotient % 2 = 0) then quotient
  else quotient + 1

/-- The largest power of two, as its exponent, that is at most `numerator / denominator`. -/
def floorLog2 (numerator denominator : Nat) : Int :=
  let estimate : Int := (numerator.log2 : Int) - denominator.log2
  if denominator * Nat.pow 2 estimate.toNat ≤ numerator * Nat.pow 2 (-estimate).toNat then estimate
  else estimate - 1

/-- The double nearest to a positive quotient, a half to the even mantissa. -/
def Binary.nearest (numerator denominator : Nat) : Binary :=
  let exponent := max leastExponent (floorLog2 numerator denominator - 52)
  let above := numerator * Nat.pow 2 (-exponent).toNat
  let below := denominator * Nat.pow 2 exponent.toNat
  ⟨divideToEven above below, exponent⟩

/-!
## The shortest decimal text of a double

A double is written with the fewest digits that read back as the same double, and with the nearest
of those. Numbers are written without an exponent, and integers without a point.
-/

/-- The number `digits * 10 ^ exponent`. -/
structure Scaled where
  digits : Nat
  exponent : Int
deriving DecidableEq

/-- The multiple of `10 ^ exponent` nearest to a fraction among those that read back as it. Four
times the fraction lies between `4 * mantissa - 2` and `4 * mantissa + 2`; the lower end is nearer
where a power of two starts a finer grid of doubles, and ends belong to even mantissas. -/
def Binary.onGrid? (value : Binary) (exponent : Int) : Option Nat :=
  let unit := 4 * Nat.pow 10 exponent.toNat * Nat.pow 2 (-value.exponent).toNat
  let scale := Nat.pow 10 (-exponent).toNat * Nat.pow 2 value.exponent.toNat
  let below := if value.mantissa = normalMantissa ∧ leastExponent < value.exponent then 1 else 2
  let low := (4 * value.mantissa - below) * scale
  let target := 4 * value.mantissa * scale
  let high := (4 * value.mantissa + 2) * scale
  let readsBack (multiple : Nat) : Bool :=
    if value.mantissa % 2 = 0 then low ≤ multiple && multiple ≤ high
    else low < multiple && multiple < high
  let floor := target / unit
  let lower := readsBack (floor * unit)
  let upper := readsBack ((floor + 1) * unit)
  if lower && (!upper || 2 * (target % unit) < unit) then some floor
  else if upper then some (floor + 1)
  else none

/-- Searches the grids from `exponent` downwards. -/
def Binary.firstGrid (value : Binary) : (steps : Nat) → (exponent : Int) → Scaled
  | 0, exponent => ⟨(value.onGrid? exponent).getD 0, exponent⟩
  | steps + 1, exponent =>
      match value.onGrid? exponent with
      | some digits => ⟨digits, exponent⟩
      | none => value.firstGrid steps (exponent - 1)

/-- The shortest number that reads back as a positive fraction: the one on the coarsest decimal
grid. The grid above the leading digit is never missed by the estimate, and seventeen digits
always suffice. -/
def Binary.shortest (value : Binary) : Scaled :=
  let magnitude : Int := value.mantissa.log2 + value.exponent
  value.firstGrid 24 (magnitude * 30103 / 100000 + 3)

def Scaled.positional (number : Scaled) : List Char :=
  let digits := Nat.toDigits 10 number.digits
  let places := (-number.exponent).toNat
  if places = 0 then digits ++ List.replicate number.exponent.toNat '0'
  else if places < digits.length then
    digits.take (digits.length - places) ++ '.' :: digits.drop (digits.length - places)
  else '0' :: '.' :: (List.replicate (places - digits.length) '0' ++ digits)

def text (value : Float) : String :=
  let bits := magnitudeBits value
  let sign := if isNegative value then "-" else ""
  if infinityBits < bits then "NaN"
  else if bits = infinityBits then sign ++ "inf"
  else if bits = 0 then sign ++ "0"
  else sign ++ String.ofList (Binary.ofBits bits).shortest.positional

/-!
## Reading doubles

A number is an optional sign followed by digits with at most one point among or around them and an
optional exponent, or by the word `inf`, `infinity` or `nan` in any case. It is read as the nearest
double.
-/

inductive Number where
  | notANumber
  | infinite (negative : Bool)
  | finite (negative : Bool) (magnitude : Scaled)

/-- The sign of a text and what follows it. -/
def readSign : List Char → Bool × List Char
  | '-' :: rest => (true, rest)
  | '+' :: rest => (false, rest)
  | text => (false, text)

/-- The leading digits of a text and what follows them. -/
def spanDigits (text : List Char) : List Char × List Char :=
  (text.takeWhile Char.isDigit, text.dropWhile Char.isDigit)

/-- An optional exponent that ends the text. -/
def readExponent : List Char → Option Int
  | [] => some 0
  | mark :: rest =>
      if mark = 'e' ∨ mark = 'E' then
        let (negative, rest) := readSign rest
        let (digits, rest) := spanDigits rest
        if digits ≠ [] ∧ rest = [] then
          let magnitude : Int := Nat.ofDigitChars 10 digits 0
          some (if negative then -magnitude else magnitude)
        else none
      else none

/-- The digits after an optional point and what follows them. -/
def readFraction : List Char → List Char × List Char
  | '.' :: rest => spanDigits rest
  | text => ([], text)

/-- Digits with an optional point and exponent. -/
def readScaled (text : List Char) : Option Scaled :=
  let (whole, rest) := spanDigits text
  let (fraction, rest) := readFraction rest
  if whole ++ fraction = [] then none
  else (readExponent rest).map fun exponent =>
    ⟨Nat.ofDigitChars 10 (whole ++ fraction) 0, exponent - fraction.length⟩

def readNumber (text : List Char) : Option Number :=
  let (negative, rest) := readSign text
  let word := String.ofList (rest.map Char.toLower)
  if word = "nan" then some .notANumber
  else if word = "inf" ∨ word = "infinity" then some (.infinite negative)
  else (readScaled rest).map (.finite negative)

/-- The magnitude bits of the double nearest to a number. Numbers of more than 310 digits before
the point are infinite, and those with more than 330 zeros after it vanish. -/
def Scaled.nearestBits (number : Scaled) : Nat :=
  let length : Int := (Nat.toDigits 10 number.digits).length
  if number.digits = 0 ∨ length + number.exponent < -330 then 0
  else if 310 < length + number.exponent then infinityBits
  else (Binary.nearest (number.digits * Nat.pow 10 number.exponent.toNat)
    (Nat.pow 10 (-number.exponent).toNat)).toBits

def ofSignAndBits (negative : Bool) (bits : Nat) : Float :=
  Float.ofBits (UInt64.ofNat (bits + if negative then Nat.pow 2 63 else 0))

def Number.toFloat : Number → Float
  | .notANumber => ofSignAndBits false (infinityBits + Nat.pow 2 51)
  | .infinite negative => ofSignAndBits negative infinityBits
  | .finite negative magnitude => ofSignAndBits negative magnitude.nearestBits

def read? (text : List Char) : Option Float := (readNumber text).map Number.toFloat

end TilePyramid.Decimal
