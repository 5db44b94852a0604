import ChainIndex.Json
import ChainIndex.Number.Shortest
import ChainIndex.Text.Integer

/-!
# The tokens of JSON text

A JSON text is a sequence of tokens: brackets, separators, strings, numbers and the three words.
`Token.chars` writes a token, `tokens` cuts a text into its tokens. A number or a string that is
well formed but has no value (a number beyond the greatest double, a string with half of a
surrogate pair) is still a token; it is a fault only where its value is asked for.
-/

namespace ChainIndex.Json

/-- A token of JSON text. -/
inductive Token where
  | openList
  | closeList
  | openObject
  | closeObject
  | comma
  | colon
  | null
  | bool (b : Bool)
  | int (n : Int)
  | float (x : Double)
  /-- A number too large for a double. -/
  | immense
  /-- A string, or nothing if it holds half of a surrogate pair. -/
  | text (s : Option String)
deriving Repr, DecidableEq

/-! ## Writing -/

/-- The lower-case hexadecimal digits of a number, at least four of them. -/
def fourHex (n : Nat) : List Char :=
  let ds := Nat.toDigits 16 n
  List.replicate (4 - ds.length) '0' ++ ds

/-- A character inside a string: the quote, the backslash and the controls are escaped. -/
def escapeChar (c : Char) : List Char :=
  if c = '"' then ['\\', '"']
  else if c = '\\' then ['\\', '\\']
  else if c.toNat = 8 then ['\\', 'b']
  else if c.toNat = 9 then ['\\', 't']
  else if c.toNat = 10 then ['\\', 'n']
  else if c.toNat = 12 then ['\\', 'f']
  else if c.toNat = 13 then ['\\', 'r']
  else if c.toNat < 32 then ['\\', 'u'] ++ fourHex c.toNat
  else [c]

/-- A string in quotes. -/
def textChars (s : String) : List Char :=
  '"' :: s.toList.flatMap escapeChar ++ ['"']

/-- The digits of an integer, after a minus sign if it is negative. -/
def intChars (n : Int) : List Char :=
  if n < 0 then '-' :: Nat.toDigits 10 n.natAbs else Nat.toDigits 10 n.natAbs

/-- The text of a token. -/
def Token.chars : Token → List Char
  | .openList => ['[']
  | .closeList => [']']
  | .openObject => ['\x7b']
  | .closeObject => ['\x7d']
  | .comma => [',']
  | .colon => [':']
  | .null => ['n', 'u', 'l', 'l']
  | .bool true => ['t', 'r', 'u', 'e']
  | .bool false => ['f', 'a', 'l', 's', 'e']
  | .int n => intChars n
  | .float x => x.chars
  | .immense => []
  | .text (some s) => textChars s
  | .text none => []

/-! ## Numbers -/

/-- The digits that fit a word of 64 bits, read on from `acc`: the number they write, how many there
are, and how many stand after them. -/
def takeWord (acc kept : Nat) : List Char → Nat × Nat × Nat
  | [] => (acc, kept, 0)
  | c :: cs =>
    let next := acc * 10 + Text.digitValue c
    if next ≤ word64Max then takeWord next (kept + 1) cs else (acc, kept, cs.length + 1)

/-- The exponent after a number's `e`. -/
def readExponent : List Char → Option Int
  | '+' :: cs => (Text.readNatural cs).map Int.ofNat
  | '-' :: cs => (Text.readNatural cs).map fun n => -Int.ofNat n
  | cs => (Text.readNatural cs).map Int.ofNat

/-- The double written by a fraction or an exponent, or by more digits than a word holds. Digits
that do not fit the word only move the exponent. -/
def readDouble (negative : Bool) (whole fraction : List Char) (exponent : Int) : Token :=
  let (acc, _, dropped) := takeWord 0 0 whole
  let (acc, kept, _) := takeWord acc 0 fraction
  match (Double.nearest false acc 1).bind fun x => x.scaleTen (exponent + dropped - kept) with
  | some x => .float { x with negative := negative }
  | none => .immense

/-- The token of a number without fraction and exponent: an integer if 64 bits hold it, signed for a
negative one. Minus zero is a double. -/
def readWhole (negative : Bool) (digits : List Char) : Token :=
  let n := Nat.ofDigitChars 10 digits 0
  if negative then
    if n ≠ 0 ∧ (n : Int) ≤ -int64Min then .int (-n) else readDouble true digits [] 0
  else
    if n ≤ word64Max then .int n else readDouble false digits [] 0

/-- The token of a number without its sign. -/
def readMagnitude (negative : Bool) (cs : List Char) : Option Token :=
  let whole := cs.takeWhile Char.isDigit
  let rest := cs.dropWhile Char.isDigit
  if whole.isEmpty || (whole.length > 1 && whole.head? == some '0') then none
  else
    match rest with
    | [] => some (readWhole negative whole)
    | '.' :: more =>
      let fraction := more.takeWhile Char.isDigit
      if fraction.isEmpty then none
      else
        match more.dropWhile Char.isDigit with
        | [] => some (readDouble negative whole fraction 0)
        | e :: power =>
          if e == 'e' || e == 'E' then (readExponent power).map (readDouble negative whole fraction)
          else none
    | e :: power =>
      if e == 'e' || e == 'E' then (readExponent power).map (readDouble negative whole [])
      else none

/-- The token written by a run of letters, digits, signs and points. -/
def readWord (cs : List Char) : Option Token :=
  match cs with
  | ['n', 'u', 'l', 'l'] => some .null
  | ['t', 'r', 'u', 'e'] => some (.bool true)
  | ['f', 'a', 'l', 's', 'e'] => some (.bool false)
  | '-' :: ds => readMagnitude true ds
  | ds => readMagnitude false ds

/-! ## Strings -/

/-- The character of two escaped halves of a surrogate pair, in the order written. -/
def joinSurrogates (high low : Nat) : Char :=
  Char.ofNat (0x10000 + (high - 0xd800) * 0x400 + (low - 0xdc00))

/-- The string of the code units of a literal: adjacent halves of a pair make one character, and a
half alone has no value. -/
def joinUnits : List Nat → Option (List Char)
  | [] => some []
  | u :: us =>
    if 0xd800 ≤ u ∧ u < 0xdc00 then
      match us with
      | v :: vs =>
        if 0xdc00 ≤ v ∧ v < 0xe000 then (joinUnits vs).map (joinSurrogates u v :: ·) else none
      | [] => none
    else if 0xdc00 ≤ u ∧ u < 0xe000 then none
    else (joinUnits us).map (Char.ofNat u :: ·)

/-- The value of a hexadecimal digit. -/
def hexValue (c : Char) : Option Nat :=
  if c.isDigit then some (c.toNat - '0'.toNat)
  else if 'a' ≤ c ∧ c ≤ 'f' then some (c.toNat - 'a'.toNat + 10)
  else if 'A' ≤ c ∧ c ≤ 'F' then some (c.toNat - 'A'.toNat + 10)
  else none

/-- The character that a backslash and a letter stand for. -/
def unescape (c : Char) : Option Nat :=
  if c = '"' ∨ c = '\\' ∨ c = '/' then some c.toNat
  else if c = 'b' then some 8
  else if c = 'f' then some 12
  else if c = 'n' then some 10
  else if c = 'r' then some 13
  else if c = 't' then some 9
  else none

/-! ## Cutting a text into tokens -/

/-- Where the scan of a text stands. What is gathered so far is in reverse. -/
inductive Mode where
  | between
  | word (done : List Char)
  | text (done : List Nat)
  | escape (done : List Nat)
  /-- After `\u`, with the digits still to come and the value of those read. -/
  | hex (done : List Nat) (left value : Nat)
deriving Repr

/-- The four characters that may stand between tokens. -/
def isSpace (c : Char) : Bool :=
  c == ' ' || c == '\n' || c == '\t' || c == '\r'

/-- A character of numbers and words. -/
def isWordChar (c : Char) : Bool :=
  c.isDigit || ('a' ≤ c && c ≤ 'z') || ('A' ≤ c && c ≤ 'Z') || c == '+' || c == '-' || c == '.'

/-- A character between tokens: the token it is, and how the scan goes on. -/
def start (c : Char) : Option (List Token × Mode) :=
  if isSpace c then some ([], .between)
  else if c = '[' then some ([.openList], .between)
  else if c = ']' then some ([.closeList], .between)
  else if c = '\x7b' then some ([.openObject], .between)
  else if c = '\x7d' then some ([.closeObject], .between)
  else if c = ',' then some ([.comma], .between)
  else if c = ':' then some ([.colon], .between)
  else if c = '"' then some ([], .text [])
  else if isWordChar c then some ([], .word [c])
  else none

/-- The scan takes one character. -/
def Mode.step : Mode → Char → Option (List Token × Mode)
  | .between, c => start c
  | .word done, c =>
    if isWordChar c then some ([], .word (c :: done))
    else do
      let token ← readWord done.reverse
      let (tokens, mode) ← start c
      some (token :: tokens, mode)
  | .text done, c =>
    if c = '"' then some ([.text ((joinUnits done.reverse).map String.ofList)], .between)
    else if c = '\\' then some ([], .escape done)
    else if c.toNat < 32 then none
    else some ([], .text (c.toNat :: done))
  | .escape done, c =>
    if c = 'u' then some ([], .hex done 4 0)
    else (unescape c).map fun u => ([], .text (u :: done))
  | .hex done left value, c =>
    (hexValue c).map fun h =>
      if left ≤ 1 then ([], .text ((value * 16 + h) :: done))
      else ([], .hex done (left - 1) (value * 16 + h))

/-- The scan comes to the end of the text. -/
def Mode.finish : Mode → Option (List Token)
  | .between => some []
  | .word done => (readWord done.reverse).map ([·])
  | _ => none

/-- The tokens of a text from a given state of the scan on. -/
def scan : Mode → List Char → Option (List Token)
  | mode, [] => mode.finish
  | mode, c :: cs => do
    let (tokens, next) ← mode.step c
    let rest ← scan next cs
    some (tokens ++ rest)

/-- The tokens of a text, or nothing if some part of it is no token. -/
def tokens (s : String) : Option (List Token) :=
  scan .between s.toList

end ChainIndex.Json
