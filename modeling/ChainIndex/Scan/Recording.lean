import ChainIndex.Chain.Holder
import ChainIndex.Scan.Conversion
import ChainIndex.Scan.WideTable

/-!
# Storing the chain

Blocks, transactions and operations are looked for before they are written, so that a block that was
stored in part can be processed once more without leaving anything twice.
-/

namespace ChainIndex.Scan

/-! ## Blocks and transactions -/

/-- Store a block, unless its number is stored. Whether it was new. -/
def recordBlock (block : Block) : Procedure Bool := do
  let record ← Program.ofExcept block.record
  if (← store (.block record.number)).isSome then pure false
  else
    store (.addBlock record)
    pure true

/-- Store the id that a block reports for the block before it, unless that id is known. -/
def recordPreviousId (block : Block) : Procedure Unit := do
  -- the first block has none before it
  if block.number ≤ 1 ∨ block.previous = "" then pure ()
  else
    let number ← Program.ofExcept (Quantity.blockNumber.int64 (block.number - 1 : Nat))
    match ← store (.block number) with
    | none => pure ()
    | some previous =>
      if previous.id = "" then store (.setBlockId number block.previous) else pure ()

/-- Store a transaction, unless its id is stored. Whether it was new. -/
def recordTransaction (tx : Transaction) : Procedure Bool := do
  if (← store (.transaction tx.id)).isSome then pure false
  else
    let record ← Program.ofExcept tx.record
    store (.addTransaction record)
    pure true

/-! ## Operations -/

/-- An operation at its place in the chain. -/
structure Placed where
  blockNumber : Nat
  transaction : String
  /-- The position of the transaction in its block. -/
  transactionIndex : Nat
  /-- The position of the operation in its transaction. -/
  index : Nat
  typeCode : Int
  typeName : String
  payload : Payload
  address : String

/-- The id of an operation: its block, its transaction and its position. -/
def placeId (blockNumber : Nat) (transaction : String) (index : Nat) : String :=
  String.ofList (Nat.toDigits 10 blockNumber ++ '@' :: transaction.toList ++
    '@' :: Nat.toDigits 10 index)

/-- The payload as it is stored: with its place in the chain, which overrides what the payload says
itself, and with an empty text for what most payloads have and some leave out. -/
def locate (p : Payload) (blockNumber : Nat) (transaction : String) (index : Nat) : Payload :=
  ((((p.put "block_num" (Json.ofNat blockNumber)).put "txid" (.str transaction)).put "index_in_tx"
    (Json.ofNat index)).putNew "memo" (.str "")).putNew "guarantee_id" (.str "")

/-- The record of an operation. -/
def Placed.record (op : Placed) : Except Error OperationRecord := do
  let blockNumber ← Quantity.blockNumber.int64 op.blockNumber
  let transactionIndex ← Quantity.transactionIndex.int32 op.transactionIndex
  let index ← Quantity.operationIndex.int32 op.index
  let typeCode ← Quantity.operationType.int32 op.typeCode
  pure {
    blockNumber, transactionIndex, index, typeCode
    id := placeId op.blockNumber op.transaction op.index
    transaction := op.transaction
    typeName := op.typeName
    payload := op.payload.text
    address := op.address }

/-- Store an operation in the table of its type and among all operations. -/
def recordOperation (op : Placed) : Procedure Unit := do
  -- the two writes are looked for one by one, since a run may have stopped between them
  let _ ← WideTable.ensure op.typeName op.payload
  if ← WideTable.lacksRow op.typeName op.transaction op.index then
    WideTable.addRow op.typeName op.payload
  else pure ()
  if (← store (.operation (placeId op.blockNumber op.transaction op.index))).isSome then
    pure ()
  else
    let record ← Program.ofExcept op.record
    store (.addOperation record)

/-- A decoded operation at its place, with the payload that is stored for it. -/
def Placed.ofDecoded (blockNumber : Nat) (transaction : String) (transactionIndex index : Nat)
    (typeCode : Int) (payload : Payload) : Placed :=
  { blockNumber, transaction, transactionIndex, index, typeCode, payload
    typeName := Operation.typeName typeCode
    address := payload.mainAddress }

/-! ## Receipts -/

/-- The receipt with the transaction's id and block where it has none of its own. -/
def completeReceipt (tx : Transaction) (receipt : Receipt) : Receipt :=
  { receipt with
    transaction := if receipt.transaction = "" then tx.id else receipt.transaction
    blockNumber := if receipt.blockNumber = 0 then tx.blockNumber else receipt.blockNumber }

/-- Ask the node for the receipts of a transaction. -/
def askReceipts (tx : Transaction) : Procedure (List Receipt) := do
  return (← node (.receipts tx.id)).map (completeReceipt tx)

/-- The receipts that the operations of a transaction need: none if no operation runs contract
code. -/
def neededReceipts (tx : Transaction) : Procedure (List Receipt) :=
  if tx.callsContract then askReceipts tx else pure []

/-- Store the receipts that are not stored yet. How many those were. -/
def recordReceipts : List Receipt → Procedure Nat
  | [] => pure 0
  | receipt :: rest => do
    let (record, events) ← Program.ofExcept receipt.records
    if ← store (.hasReceipt record.transaction record.operation) then recordReceipts rest
    else
      store (.addReceipt record events)
      return (← recordReceipts rest) + 1

end ChainIndex.Scan
