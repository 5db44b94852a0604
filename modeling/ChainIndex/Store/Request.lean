import ChainIndex.Error
import ChainIndex.Program
import ChainIndex.Store.Record

/-!
# What is asked of a store

Every request either reads or is one independent write, except that a receipt and its events are
written together. A store answers a request with its reply or with an error.
-/

namespace ChainIndex.Store

/-- A request to a store. -/
inductive Request where
  | config (key : String)
  | putConfig (key value : String)
  | block (number : Int)
  | addBlock (block : BlockRecord)
  | setBlockId (number : Int) (id : String)
  | transaction (id : String)
  | addTransaction (tx : TransactionRecord)
  | operation (id : String)
  | addOperation (operation : OperationRecord)
  | hasTable (table : String)
  | addTable (table : String) (columns : List Column) (index : TableIndex)
  /-- The columns of a table in the order of their declaration. -/
  | columns (table : String)
  | hasRow (table transaction : String) (index : Int)
  | addRow (table : String) (row : Row)
  | hasReceipt (transaction : String) (operation : Int)
  | addReceipt (receipt : ReceiptRecord) (events : List EventRecord)
  | account (owner : String)
  | addAccount (account : AccountRecord)
  | asset (id : String)
  | addAsset (asset : AssetRecord)
  | balance (owner asset : String)
  | putBalance (balance : BalanceRecord)
  | token (id : String)
  | addToken (token : TokenRecord)
  | setToken (token : TokenRecord)
  | holding (contract owner : String)
  | putHolding (balance : HoldingRecord)
  | transfer (transaction : String) (operation : Int)
  | addTransfer (transfer : TransferRecord)
deriving DecidableEq, Repr

/-- What a store finds or does for a request, if it does not fail. -/
@[reducible] def Request.Result : Request → Type
  | .config _ => Option String
  | .block _ => Option BlockRecord
  | .transaction _ => Option TransactionRecord
  | .operation _ => Option OperationRecord
  | .hasTable _ => Bool
  | .columns _ => List Column
  | .hasRow _ _ _ => Bool
  | .hasReceipt _ _ => Bool
  | .account _ => Option AccountRecord
  | .asset _ => Option AssetRecord
  | .balance _ _ => Option BalanceRecord
  | .token _ => Option TokenRecord
  | .holding _ _ => Option HoldingRecord
  | .transfer _ _ => Option TransferRecord
  | .putConfig _ _ => Unit
  | .addBlock _ => Unit
  | .setBlockId _ _ => Unit
  | .addTransaction _ => Unit
  | .addOperation _ => Unit
  | .addTable _ _ _ => Unit
  | .addRow _ _ => Unit
  | .addReceipt _ _ => Unit
  | .addAccount _ => Unit
  | .addAsset _ => Unit
  | .putBalance _ => Unit
  | .addToken _ => Unit
  | .setToken _ => Unit
  | .putHolding _ => Unit
  | .addTransfer _ => Unit

/-- The requests to a store, each answered by a result or an error. -/
def interface : Interface where
  Request := Request
  Reply request := Except Error request.Result

end ChainIndex.Store
