import ChainIndex.Chain.Amount
import ChainIndex.Json.Record

/-!
# Assets and balances

The native assets of the chain, and the balances the node reports for an address.
-/

namespace ChainIndex

open Json (Document Reader fields? ofNat)

/-- The greatest number that a word of 32 bits holds, `2 ^ 32 - 1`. -/
def word32Max : Nat := 4294967295

/-- A native asset. -/
structure Asset where
  id : String
  symbol : String
  precision : Nat
deriving Repr, DecidableEq, Inhabited

namespace Asset

/-- The names of an asset's fields, in the order of the wire. -/
def fieldNames : List String := ["id", "symbol", "precision"]

/-- Read an asset; it has to be complete. -/
def read : Reader Asset := fun d => do
  let fields ← fields? fieldNames d
  some {
    id := ← fields.need "id" .text
    symbol := ← fields.need "symbol" .text
    precision := ← fields.need "precision" (.natural word32Max) }

/-- The fields of an asset as they are written. -/
def json (asset : Asset) : Json :=
  .obj [("id", .str asset.id), ("symbol", .str asset.symbol), ("precision", ofNat asset.precision)]

end Asset

/-- One entry of the balances of an address. -/
structure BalanceEntry where
  amount : Json
  asset : String
deriving Repr, Inhabited

namespace BalanceEntry

/-- The names of an entry's fields, in the order of the wire. -/
def fieldNames : List String := ["amount", "asset_id"]

/-- Read an entry; it has to be complete. -/
def read : Reader BalanceEntry := fun d => do
  let fields ← fields? fieldNames d
  some {
    amount := ← fields.need "amount" .value
    asset := ← fields.need "asset_id" .text }

end BalanceEntry

/-- The balances of an address: the raw amount of each asset, in ascending order of asset ids. -/
abbrev Balances := List (String × Int)

namespace Balances

/-- Set the amount of an asset. -/
def put (asset : String) (amount : Int) : Balances → Balances
  | [] => [(asset, amount)]
  | (a, n) :: rest =>
    if asset < a then (asset, amount) :: (a, n) :: rest
    else if asset = a then (asset, amount) :: rest
    else (a, n) :: put asset amount rest

/-- The amounts of a list of entries, the last entry of an asset being the one that counts. The
first entry without an amount is a fault. -/
def ofEntries (entries : List BalanceEntry) : Except Error Balances :=
  -- `put` overwrites, so that of several entries of an asset the last one stays
  entries.foldlM (fun balances entry =>
    match Amount.ofJson entry.amount with
    | some amount => .ok (balances.put entry.asset amount)
    | none => .error (.malformed (.balanceAmount entry.amount entry.asset))) []

end Balances

end ChainIndex
