import ChainIndex.Number.Double

/-!
# The shortest decimal of a double

The decimals that read back as a given double are those of an interval around it, with its two
ends when the mantissa is even. `shortest` takes the coarsest decimal grid that meets the
interval, and on it the point nearest to the double.
-/

namespace ChainIndex.Double

/-- The decimal `digits · 10 ^ exponent`. -/
structure Decimal where
  digits : Nat
  exponent : Int
deriving DecidableEq, Repr

/-- The reals that read back as a positive double, as numerators over one denominator. -/
structure Interval where
  low : Nat
  value : Nat
  high : Nat
  den : Nat
  closed : Bool

/-- The interval of a positive double. The gap below a power of two is half the gap above it. -/
def interval (x : Double) : Interval :=
  let below := if 2 * x.mantissa = mantissaBound ∧ minExponent < x.exponent then 1 else 2
  let e := x.exponent - 2
  let up := Nat.pow 2 e.toNat
  ⟨(4 * x.mantissa - below) * up, 4 * x.mantissa * up, (4 * x.mantissa + 2) * up,
    Nat.pow 2 (-e).toNat, x.mantissa % 2 == 0⟩

/-- Whether the point `c · 10 ^ p` lies in the interval. -/
def Interval.meets (i : Interval) (c : Nat) (p : Int) : Bool :=
  let point := c * Nat.pow 10 p.toNat * i.den
  let unit := Nat.pow 10 (-p).toNat
  if i.closed then i.low * unit ≤ point && point ≤ i.high * unit
  else i.low * unit < point && point < i.high * unit

/-- The number of decimal digits of a natural number. -/
def digitCount (n : Nat) : Nat := (Nat.toDigits 10 n).length

/-- The greatest `k` with `10 ^ k ≤ num / den`, for positive `num` and `den`. -/
def decimalMagnitude (num den : Nat) : Int :=
  if den ≤ num then (digitCount (num / den) : Int) - 1
  else -(digitCount ((den + num - 1) / num - 1) : Int)

/-- The point of the grid of step `10 ^ p` that reads back: the nearer one of two, and of two
equally near ones the even one. -/
def Interval.onGrid (i : Interval) (p : Int) : Option Nat :=
  let num := i.value * Nat.pow 10 (-p).toNat
  let den := i.den * Nat.pow 10 p.toNat
  let c := num / den
  -- the two points next to the value: if any point lies in the interval, one of these does
  match i.meets c p, i.meets (c + 1) p with
  | true, true => some (roundQuotient num den)
  | true, false => some c
  | false, true => some (c + 1)
  | false, false => none

/-- Drop the zeros at the end of a decimal. -/
def Decimal.trim : Nat → Decimal → Decimal
  | 0, d => d
  | fuel + 1, d =>
    if d.digits % 10 = 0 then Decimal.trim fuel ⟨d.digits / 10, d.exponent + 1⟩ else d

/-- Try grids from the coarsest on, each ten times finer than the one before. -/
def Interval.search (i : Interval) : Nat → Int → Option Decimal
  | 0, _ => none
  | tries + 1, p =>
    match i.onGrid p with
    | some c => some ⟨c, p⟩
    | none => i.search tries (p - 1)

/-- The shortest decimal that reads back as a positive double; seventeen digits always do. -/
def shortest (x : Double) : Decimal :=
  let i := x.interval
  match i.search 17 (decimalMagnitude i.value i.den) with
  | some d => d.trim 20
  | none => ⟨i.value / i.den, 0⟩

/-! ## Text -/

/-- Numbers with a leading digit between `10 ^ -5` and `10 ^ 15` are written without an exponent. -/
def isPlain (leading : Int) : Bool := -5 ≤ leading && leading ≤ 15

/-- The text of a finite double: the shortest digits, a fraction in plain notation, and the sign of
the exponent otherwise. -/
def chars (x : Double) : List Char :=
  let sign := if x.negative then ['-'] else []
  if x.isZero then sign ++ ['0', '.', '0']
  else
    let d := x.shortest
    let digits := Nat.toDigits 10 d.digits
    let leading := d.exponent + digits.length - 1
    let body :=
      if isPlain leading then
        if 0 ≤ d.exponent then digits ++ List.replicate d.exponent.toNat '0' ++ ['.', '0']
        else if 0 ≤ leading then
          digits.take (leading.toNat + 1) ++ '.' :: digits.drop (leading.toNat + 1)
        else '0' :: '.' :: List.replicate (-leading - 1).toNat '0' ++ digits
      else
        -- a single digit has no fraction here
        let fraction := if digits.length = 1 then [] else '.' :: digits.drop 1
        let power := if leading < 0 then '-' :: Nat.toDigits 10 (-leading).toNat
          else '+' :: Nat.toDigits 10 leading.toNat
        digits.take 1 ++ fraction ++ 'e' :: power
    sign ++ body

end ChainIndex.Double
