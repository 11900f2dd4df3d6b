/-
# Doubles by their bits

A double is kept as the 64 bits of its binary64 form, so that two of them can be told apart bit for
bit.  `same` is the numeric comparison: a not-a-number differs from everything and the two zeros are
the same.  `ofInt` rounds an integer to the nearest double, and a tie goes to the even one.
-/

namespace MessageBus

/-- A binary64 number, by its bits. -/
structure Double where
  bits : UInt64
  deriving DecidableEq, Repr, Inhabited

namespace Double

/-- The eleven bits of the exponent. -/
def exponent (d : Double) : Nat := d.bits.toNat / Nat.pow 2 52 % Nat.pow 2 11

/-- The fifty-two bits of the fraction. -/
def fraction (d : Double) : Nat := d.bits.toNat % Nat.pow 2 52

/-- Whether the sign bit is set. -/
def isNegative (d : Double) : Bool := Nat.pow 2 63 ≤ d.bits.toNat

/-- Whether the bits stand for no number: the exponent is full and the fraction is not zero. -/
def isNaN (d : Double) : Bool := d.exponent = 2047 && d.fraction ≠ 0

/-- Whether the bits stand for an infinity. -/
def isInfinite (d : Double) : Bool := d.exponent = 2047 && d.fraction = 0

/-- Whether the number is a zero of either sign. -/
def isZero (d : Double) : Bool := d.exponent = 0 && d.fraction = 0

/-- Numeric equality. -/
def same (x y : Double) : Bool :=
  !x.isNaN && !y.isNaN && (x.bits = y.bits || (x.isZero && y.isZero))

/-- The quotient `n / d` rounded to the nearest natural number, a tie to the even one. -/
def roundQuotient (n d : Nat) : Nat :=
  let q := n / d
  let r := n % d
  if d < 2 * r ∨ (2 * r = d ∧ q % 2 = 1) then q + 1 else q

/-- The bits of the double nearest to `n`, for `n` below `2 ^ 1023`.  The significand takes 53 bits,
its leading one among them; when rounding fills a 54th, the sum carries into the exponent. -/
def magnitude (n : Nat) : Nat :=
  if n = 0 then 0
  else
    let e := n.log2
    let significand :=
      if e ≤ 52 then n * Nat.pow 2 (52 - e) else roundQuotient n (Nat.pow 2 (e - 52))
    (e + 1022) * Nat.pow 2 52 + significand

/-- The double nearest to `i`, a tie to the even significand. -/
def ofInt (i : Int) : Double :=
  ⟨UInt64.ofNat (magnitude i.natAbs + if i < 0 then Nat.pow 2 63 else 0)⟩

end Double

end MessageBus
