/-
# The text of a double

A finite double is written with the shortest digits that read back, and always so that it cannot be
taken for an integer.  Very small and very large numbers are written with an exponent
(`positional` says which are not).
-/
import MessageBus.Decimal.Shortest
import MessageBus.Double

namespace MessageBus.Double

/-- The magnitude of a double that is finite and not zero. -/
def binary (d : Double) : Decimal.Binary :=
  if d.exponent = 0 then { significand := d.fraction, exponent := -1074, isFinerBelow := false }
  else
    { significand := Nat.pow 2 52 + d.fraction
      exponent := (d.exponent : Int) - 1075
      isFinerBelow := d.fraction = 0 && 1 < d.exponent }

/-- Which places of the first digit are written without an exponent: those of numbers from `1e-4`
up to but not including `1e16`. -/
def positional (place : Int) : Bool := -4 ≤ place && place < 16

/-- Digits with a point after the first, if there are more, and the exponent. -/
def scientificText (digits : List Char) (place : Int) : String :=
  let point := match digits with
    | c :: [] => [c]
    | c :: cs => c :: '.' :: cs
    | [] => []
  s!"{String.ofList point}e{place}"

/-- Digits with a point at its place and at least one digit on either side. -/
def positionalText (digits : List Char) (place : Int) : String :=
  if place < 0 then
    "0." ++ String.ofList (List.replicate (-place - 1).toNat '0' ++ digits)
  else
    let n := (place + 1).toNat
    let whole := digits.take n ++ List.replicate (n - digits.length) '0'
    let rest := if digits.length ≤ n then ['0'] else digits.drop n
    s!"{String.ofList whole}.{String.ofList rest}"

/-- A decimal point's digits without zeros at the end, and the place of the first. -/
def digitsOf (p : Decimal.Point) : List Char × Int :=
  let digits := Nat.toDigits 10 p.digits
  ((digits.reverse.dropWhile (· = '0')).reverse, p.exponent + digits.length - 1)

/-- The text of the magnitude. -/
def magnitudeText (d : Double) : String :=
  if d.isZero then "0.0"
  else
    let (digits, place) := digitsOf d.binary.shortest
    if positional place then positionalText digits place else scientificText digits place

/-- The text of a double. -/
def text (d : Double) : String :=
  if d.isNaN then "NaN"
  else
    let sign := if d.isNegative then "-" else ""
    sign ++ if d.isInfinite then "inf" else d.magnitudeText

end MessageBus.Double
