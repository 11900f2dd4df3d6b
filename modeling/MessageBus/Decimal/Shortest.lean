/-
# The shortest decimal that reads back

A binary number `m * 2 ^ q` is what every real number in an interval around it is rounded to.  The
ends lie halfway to its two neighbours; they belong to the interval if `m` is even.  `shortest` gives
the point of that interval which has the fewest decimal digits, and of several the one nearest to
the number itself.

To compare binary with decimal grids in whole numbers, everything is counted in quarters of the
last binary place: the number is `4 * m` of them, its upper neighbour is four away, and its lower
neighbour four, or two if the binary places get finer below.
-/

namespace MessageBus.Decimal

/-- A decimal number `digits * 10 ^ exponent`. -/
structure Point where
  digits : Nat
  exponent : Int
  deriving DecidableEq, Repr

/-- A positive binary number `significand * 2 ^ exponent`. -/
structure Binary where
  significand : Nat
  exponent : Int
  /-- Whether the places below the number are half as wide. -/
  isFinerBelow : Bool
  deriving Repr

/-- Two scales on which the quarters of a binary grid and the steps of a decimal grid are whole
numbers: a quarter is `binary` and a step is `decimal` on both. -/
structure Scale where
  binary : Nat
  decimal : Nat

/-- The scale for quarters of `2 ^ q` and steps of `10 ^ k`. -/
def Scale.of (q k : Int) : Scale :=
  { binary := Nat.pow 2 (q - 2).toNat * Nat.pow 10 (-k).toNat
    decimal := Nat.pow 10 k.toNat * Nat.pow 2 (2 - q).toNat }

namespace Binary

/-- Whether `c` steps of the scale read back as the number. -/
def reads (b : Binary) (s : Scale) (c : Nat) : Bool :=
  let low := (4 * b.significand - if b.isFinerBelow then 1 else 2) * s.binary
  let high := (4 * b.significand + 2) * s.binary
  let point := c * s.decimal
  if b.significand % 2 = 0 then low ≤ point && point ≤ high else low < point && point < high

/-- Whether the number is at least `10 ^ e`. -/
def reaches (b : Binary) (e : Int) : Bool :=
  let s := Scale.of b.exponent e
  s.decimal ≤ 4 * b.significand * s.binary

/-- The place of the first decimal digit: `e` with `10 ^ e ≤ b < 10 ^ (e + 1)`.  The place of the
first binary digit, times the logarithm of two, misses it by one at most. -/
def magnitude (b : Binary) : Int :=
  let e := (b.exponent + b.significand.log2) * 30103 / 100000
  if b.reaches (e + 1) then e + 1 else e

/-- The point with `n` digits that reads back and is nearest to the number, the upper one in a tie:
only the two neighbours of the number on the decimal grid can be that. -/
def pointOf? (b : Binary) (n : Nat) : Option Point :=
  let k := b.magnitude + 1 - n
  let s := Scale.of b.exponent k
  let value := 4 * b.significand * s.binary
  let below := value / s.decimal
  let upperIsNearer := s.decimal ≤ 2 * (value % s.decimal)
  match b.reads s below, b.reads s (below + 1) with
  | true, true => some ⟨if upperIsNearer then below + 1 else below, k⟩
  | true, false => some ⟨below, k⟩
  | false, true => some ⟨below + 1, k⟩
  | false, false => none

/-- The shortest decimal that reads back.  Seventeen digits always do. -/
def shortest (b : Binary) : Point :=
  ((List.range 17).findSome? fun n => b.pointOf? (n + 1)).getD ⟨0, 0⟩

end Binary

end MessageBus.Decimal
