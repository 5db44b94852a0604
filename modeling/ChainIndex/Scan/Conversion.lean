import ChainIndex.Chain.Asset
import ChainIndex.Chain.Block
import ChainIndex.Chain.Operation
import ChainIndex.Chain.Receipt
import ChainIndex.Store.Record

/-!
# From the chain to records

The records that blocks, transactions and receipts are stored as. The chain counts in words of 64
bits without a sign, columns are narrower; a number that does not fit its column is an error, and
the first one in the order of the fields is reported.
-/

namespace ChainIndex

/-- A number in a column of 64 bits. -/
def Quantity.int64 (what : Quantity) (n : Int) : Except Error Int :=
  if int64Min ≤ n ∧ n ≤ int64Max then .ok n else .error (.malformed (.outOfRange what n))

/-- A number in a column of 32 bits. -/
def Quantity.int32 (what : Quantity) (n : Int) : Except Error Int :=
  if int32Min ≤ n ∧ n ≤ int32Max then .ok n else .error (.malformed (.outOfRange what n))

/-- The record of a block. Its own id and its reward are not known yet. -/
def Block.record (block : Block) : Except Error BlockRecord := do
  let number ← Quantity.blockNumber.int64 block.number
  let fee ← Quantity.blockFee.int64 block.fee
  let transactionCount ← Quantity.transactionCount.int32 block.transactions.length
  pure {
    number, fee, transactionCount
    previous := block.previous
    timestamp := block.timestamp
    miner := block.miner
    merkleRoot := block.merkleRoot
    nextSecretHash := block.nextSecretHash
    id := ""
    reward := 0 }

/-- The record of a transaction. -/
def Transaction.record (tx : Transaction) : Except Error TransactionRecord := do
  let blockNumber ← Quantity.blockNumber.int64 tx.blockNumber
  let refBlockNumber ← Quantity.referenceBlock.int64 tx.refBlockNumber
  let refBlockPrefix ← Quantity.referencePrefix.int64 tx.refBlockPrefix
  let operationCount ← Quantity.operationCount.int32 tx.operations.length
  let indexInBlock ← Quantity.transactionIndex.int32 tx.indexInBlock
  let leadingType ← Quantity.operationType.int32 (tx.leadingType.getD (-1))
  pure {
    blockNumber, refBlockNumber, refBlockPrefix, operationCount, indexInBlock, leadingType
    id := tx.id
    expiration := tx.expiration }

/-- The record of an event, under the id of the transaction whose receipt holds it. -/
def Event.record (transaction : String) (event : Event) : Except Error EventRecord := do
  let blockNumber ← Quantity.eventBlock.int64 event.blockNumber
  let operation ← Quantity.eventOperation.int32 event.operation
  pure {
    transaction, blockNumber, operation
    caller := event.caller
    contract := event.contract
    argument := event.argument
    name := event.name }

/-- The record of a receipt and those of its events. -/
def Receipt.records (receipt : Receipt) : Except Error (ReceiptRecord × List EventRecord) := do
  let blockNumber ← Quantity.receiptBlock.int64 receipt.blockNumber
  let operation ← Quantity.receiptOperation.int32 receipt.operation
  let fee ← Quantity.receiptFee.int64 receipt.fee
  let record : ReceiptRecord := {
    blockNumber, operation, fee
    transaction := receipt.transaction
    apiResult := receipt.apiResult
    succeeded := receipt.succeeded
    invoker := receipt.invoker
    registered := receipt.registered
    events := (Json.arr (receipt.events.map Event.json)).text
    withdrawals := (Json.arr receipt.withdrawals).text
    balanceChanges := (Json.arr receipt.balanceChanges).text
    addressDeposits := (Json.arr receipt.addressDeposits).text
    contractDeposits := (Json.arr receipt.contractDeposits).text
    transferFees := (Json.arr receipt.transferFees).text }
  let events ← receipt.events.mapM (Event.record receipt.transaction)
  pure (record, events)

/-- The record of an asset; its precision has to fit a column of 32 bits. -/
def Asset.record (asset : Asset) : Except Error AssetRecord :=
  if (asset.precision : Int) ≤ int32Max then .ok ⟨asset.id, asset.symbol, asset.precision⟩
  else .error (.malformed (.assetPrecision asset.id asset.precision))

end ChainIndex
