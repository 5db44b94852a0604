import ChainIndex.Chain.Amount
import ChainIndex.Scan.Procedure

/-!
# Questions to a token

What a token contract says about itself when it is asked, on behalf of a caller, through the node.
-/

namespace ChainIndex.Observer.Question

open Scan (Procedure node)

/-- The text that a contract answers. -/
def text (caller contract method : String) : Procedure String := do
  return Amount.unquote (← node (.invoke caller contract method ""))

/-- The integer that a contract answers. -/
def integer (caller contract method argument : String) : Procedure Int := do
  Program.ofExcept (Amount.ofResult (← node (.invoke caller contract method argument)))

/-- What a token says about its name and unit. -/
structure Description where
  name : String
  symbol : String
  precision : Nat
deriving DecidableEq, Repr

/-- A number of decimal places that fits a word of 32 bits. -/
def precision (contract : String) (n : Int) : Except Error Nat :=
  if 0 ≤ n ∧ n ≤ word32Max then .ok n.toNat else .error (.malformed (.tokenPrecision n contract))

/-- Name, symbol and precision of a token: all of them or none. -/
def description (caller contract : String) : Procedure Description := do
  let name ← text caller contract "tokenName"
  let symbol ← text caller contract "tokenSymbol"
  let places ← integer caller contract "precision" ""
  let precision ← Program.ofExcept (precision contract places)
  pure { name, symbol, precision }

/-- How many units of a token there are. -/
def supply (caller contract : String) : Procedure Int :=
  integer caller contract "totalSupply" ""

/-- How many units of a token an owner has. -/
def holding (caller contract owner : String) : Procedure Int :=
  integer caller contract "balanceOf" owner

end ChainIndex.Observer.Question
