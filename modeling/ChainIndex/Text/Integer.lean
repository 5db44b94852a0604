/-!
# Integers written in decimal

An integer is an optional single sign and one or more ASCII digits, and nothing else. `readInteger`
reads that grammar; the reader of a bounded word also says what is wrong with a text it refuses.
-/

namespace ChainIndex.Text

/-- The value of a digit. -/
def digitValue (c : Char) : Nat :=
  c.toNat - '0'.toNat

/-- The number written by a non-empty run of digits. -/
def readNatural (cs : List Char) : Option Nat :=
  if cs.isEmpty || !cs.all Char.isDigit then none
  else some (Nat.ofDigitChars 10 cs 0)

/-- The integer written by an optional sign and a run of digits. -/
def readInteger : List Char → Option Int
  | '+' :: cs => (readNatural cs).map Int.ofNat
  | '-' :: cs => (readNatural cs).map fun n => -Int.ofNat n
  | cs => (readNatural cs).map Int.ofNat

/-- The integer a text writes, if it lies between two bounds. -/
def readBounded (low high : Int) (s : String) : Option Int :=
  (readInteger s.toList).filter fun n => low ≤ n && n ≤ high

/-- What keeps a text from being a number that fits a word. -/
inductive WordFault where
  | empty
  | digit
  | large
deriving DecidableEq, Repr

/-- The wording of a refusal. -/
def WordFault.message : WordFault → String
  | .empty => "cannot parse integer from empty string"
  | .digit => "invalid digit found in string"
  | .large => "number too large to fit in target type"

/-- Read on from `acc`; the first character that is no digit, or that would carry the number past
`high`, decides the refusal. -/
def readWordFrom (high : Nat) : Nat → List Char → Except WordFault Nat
  | acc, [] => .ok acc
  | acc, c :: cs =>
    if !c.isDigit then .error .digit
    else if acc * 10 + digitValue c ≤ high then readWordFrom high (acc * 10 + digitValue c) cs
    else .error .large

/-- Read a number of at most `high` with an optional plus sign. -/
def readWord (high : Nat) (s : String) : Except WordFault Nat :=
  match s.toList with
  | [] => .error .empty
  -- a sign alone is a character that is no digit, not an empty text
  | ['+'] => .error .digit
  | '+' :: cs => readWordFrom high 0 cs
  | cs => readWordFrom high 0 cs

end ChainIndex.Text
