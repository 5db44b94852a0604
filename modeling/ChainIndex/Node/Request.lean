import ChainIndex.Chain.Asset
import ChainIndex.Chain.Block
import ChainIndex.Chain.Receipt
import ChainIndex.Program

/-!
# What is asked of a node

Read access to a chain. Every request is a round trip that can fail.
-/

namespace ChainIndex.Node

/-- A request to a node. -/
inductive Request where
  /-- A block with its transactions and their ids. -/
  | block (number : Nat)
  /-- The receipts of a transaction's contract operations. -/
  | receipts (transaction : String)
  /-- The result of a read-only method of a contract. -/
  | invoke (caller contract method argument : String)
  /-- Some of the native assets. -/
  | assets (offset limit : Nat)
  /-- The current balances of an address. -/
  | balances (address : String)
deriving DecidableEq, Repr

/-- What a node finds for a request, if it does not fail. A block that is not there yet is
nothing. -/
@[reducible] def Request.Result : Request → Type
  | .block _ => Option Block
  | .receipts _ => List Receipt
  | .invoke _ _ _ _ => String
  | .assets _ _ => List Asset
  | .balances _ => Balances

/-- The requests to a node, each answered by a result or an error. -/
def interface : Interface where
  Request := Request
  Reply request := Except Error request.Result

end ChainIndex.Node
