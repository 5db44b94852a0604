import ChainIndex.Error
import ChainIndex.Json.Document
import ChainIndex.Number.FixedPoint
import ChainIndex.Text.Blank
import ChainIndex.Text.Integer

/-!
# Amounts

Raw amounts are integers of 128 bits. The node writes them as numbers, as texts, or as texts that
are themselves JSON strings; `scale` shows one with the decimal places of its asset or token.
-/

namespace ChainIndex.Amount

/-- The least raw amount, `-2 ^ 127`. -/
def least : Int := -170141183460469231731687303715884105728

/-- The greatest raw amount, `2 ^ 127 - 1`. -/
def greatest : Int := 170141183460469231731687303715884105727

/-- The amount a text writes, blanks around it aside. -/
def ofText (s : String) : Option Int :=
  Text.readBounded least greatest (Text.trim s)

/-- The amount a value stands for: an integer, or a text that writes one. -/
def ofJson : Json → Option Int
  | .int n => some n
  | .str s => ofText s
  | _ => none

/-- The text of a contract's result: the string it denotes if it is a JSON string, otherwise the
result as it is. -/
def unquote (raw : String) : String :=
  -- a quote that stands alone is no JSON string
  if 1 < raw.utf8ByteSize ∧ raw.toList.head? = some '"' then
    match Json.Document.read raw with
    | some (.text inner) => inner
    | _ => raw
  else raw

/-- The integer that a contract's result stands for, quoted or not. -/
def ofResult (raw : String) : Except Error Int :=
  match ofText (unquote (Text.trim raw)) with
  | some n => .ok n
  | none => .error (.malformed (.contractInteger raw))

/-! ## Decimal places -/

/-- The digits of a magnitude with a point before the last `places` of them. -/
def placed (magnitude places : Nat) : List Char :=
  let digits := Nat.toDigits 10 magnitude
  if places = 0 then digits
  else
    -- at least one digit stands before the point
    let padded := List.replicate (places + 1 - digits.length) '0' ++ digits
    let whole := padded.length - places
    padded.take whole ++ '.' :: padded.drop whole

/-- A raw amount with a point put between its digits, however many places there are. A formatter
that pads with zeros may have a greatest width, 65535 for one, and stop where more are asked for;
such a limit is not modelled. -/
def shiftPoint (raw : Int) (places : Nat) : String :=
  String.ofList (if raw < 0 then '-' :: placed raw.natAbs places else placed raw.natAbs places)

/-- A raw amount with the given decimal places, as a library of decimal numbers writes it; without a
precision, the amount as it is. -/
def scaleWith (lib : FixedPoint) (raw : Int) : Option Nat → String
  | none => String.ofList (Json.intChars raw)
  | some places =>
    match lib.number? raw places with
    | some number => lib.text number
    -- amounts have more bits, and assets more places, than the library may have room for
    | none => shiftPoint raw places

/-- A raw amount with the given decimal places. -/
def scale (raw : Int) (precision : Option Nat) : String :=
  scaleWith .words96 raw precision

end ChainIndex.Amount
