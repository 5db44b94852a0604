/-!
# Double-precision numbers

A finite binary64 number as its sign, its mantissa and the power of two it counts, so that its value
is exact: `± mantissa · 2 ^ exponent`. Rounding takes a quotient of natural numbers to the nearest
such number, a tie going to the even mantissa; multiplication and division are the exact operation
followed by one rounding.
-/

namespace ChainIndex

/-- A finite binary64 number. -/
structure Double where
  negative : Bool
  mantissa : Nat
  exponent : Int
deriving DecidableEq, Repr, Inhabited

namespace Double

/-- The least exponent, that of the numbers next to zero. -/
def minExponent : Int := -1074

/-- The greatest exponent of a finite number. -/
def maxExponent : Int := 971

/-- One more than the greatest mantissa: `2 ^ 53`. -/
def mantissaBound : Nat := 9007199254740992

/-- Zero of either sign. -/
def zero (negative : Bool) : Double := ⟨negative, 0, minExponent⟩

/-- Whether the number is one of the two zeros. -/
def isZero (x : Double) : Bool := x.mantissa == 0

/-! ## Rounding -/

/-- The natural number nearest to a quotient, the even one of two equally near. -/
def roundQuotient (num den : Nat) : Nat :=
  let q := num / den
  let r := num % den
  if 2 * r < den then q else if den < 2 * r then q + 1 else q + q % 2

/-- The greatest `k` with `2 ^ k ≤ num / den`, for positive `num` and `den`. -/
def binaryMagnitude (num den : Nat) : Int :=
  let k : Int := (Nat.log2 num : Int) - Nat.log2 den
  if den * Nat.pow 2 k.toNat ≤ num * Nat.pow 2 (-k).toNat then k else k - 1

/-- The double nearest to `num / den`, or nothing when that lies beyond the greatest double. -/
def nearest (negative : Bool) (num den : Nat) : Option Double :=
  if num = 0 ∨ den = 0 then some (zero negative)
  else
    let e := max minExponent (binaryMagnitude num den - 52)
    let m := roundQuotient (num * Nat.pow 2 (-e).toNat) (den * Nat.pow 2 e.toNat)
    let (m, e) := if m = mantissaBound then (m / 2, e + 1) else (m, e)
    if maxExponent < e then none else some ⟨negative, m, e⟩

/-! ## Arithmetic -/

/-- The magnitude of a double as a quotient of natural numbers. -/
def quotient (x : Double) : Nat × Nat :=
  (x.mantissa * Nat.pow 2 x.exponent.toNat, Nat.pow 2 (-x.exponent).toNat)

/-- The rounded product, or nothing beyond the greatest double. -/
def mul? (x y : Double) : Option Double :=
  let (a, b) := x.quotient
  let (c, d) := y.quotient
  nearest (x.negative != y.negative) (a * c) (b * d)

/-- The rounded quotient, or nothing beyond the greatest double. -/
def div? (x y : Double) : Option Double :=
  let (a, b) := x.quotient
  let (c, d) := y.quotient
  nearest (x.negative != y.negative) (a * d) (b * c)

/-- The double nearest to a power of ten. -/
def powerOfTen (n : Nat) : Double := (nearest false (Nat.pow 10 n) 1).getD (zero false)

/-- Divide by `10 ^ 308` some times over; zero stays zero. -/
def divideDown : Nat → Double → Option Double
  | 0, x => some x
  | k + 1, x => if x.isZero then some x else (x.div? (powerOfTen 308)).bind (divideDown k)

/-- `x · 10 ^ n` in rounded arithmetic: one product or quotient with a power of ten, after dividing
by `10 ^ 308` as long as the power itself lies out of reach. Nothing beyond the greatest double. -/
def scaleTen (x : Double) (n : Int) : Option Double :=
  if 0 ≤ n then
    if n ≤ 308 then x.mul? (powerOfTen n.toNat) else if x.isZero then some x else none
  else
    let steps := ((-n - 1) / 308).toNat
    (x.divideDown steps).bind fun y => y.div? (powerOfTen ((-n).toNat - 308 * steps))

end Double

end ChainIndex
