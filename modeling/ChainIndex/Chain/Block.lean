import ChainIndex.Json.Record
import ChainIndex.Json.Text

/-!
# Blocks and transactions

What the node reports of a block: its header, its transactions and their ids. The operations of a
transaction stay uninterpreted pairs, so that a malformed one comes to light where it is processed.
`placeAll` puts the position of each transaction on record.
-/

namespace ChainIndex

open Json (Document Reader fields? ofNat ofTexts)

/-- A signed transaction inside a block. -/
structure Transaction where
  blockNumber : Nat := 0
  id : String := ""
  contractId : String := ""
  indexInBlock : Nat := 0
  expiration : String := ""
  extensions : List Json := []
  operationResults : List Json := []
  operations : List Json := []
  refBlockNumber : Nat := 0
  refBlockPrefix : Nat := 0
  signatures : List String := []
deriving Repr, Inhabited

namespace Transaction

/-- The names of a transaction's fields, in the order of the wire. -/
def fieldNames : List String :=
  ["block_num", "trxid", "contract_id", "index_in_block", "expiration", "extensions",
    "operation_results", "operations", "ref_block_num", "ref_block_prefix", "signatures"]

/-- Read a transaction; a field that is left out is empty or zero. -/
def read : Reader Transaction := fun d => do
  let fields ← fields? fieldNames d
  some {
    blockNumber := ← fields.get "block_num" .word 0
    id := ← fields.get "trxid" .text ""
    contractId := ← fields.get "contract_id" .text ""
    indexInBlock := ← fields.get "index_in_block" .word 0
    expiration := ← fields.get "expiration" .text ""
    extensions := ← fields.get "extensions" (.list .value) []
    operationResults := ← fields.get "operation_results" (.list .value) []
    operations := ← fields.get "operations" (.list .value) []
    refBlockNumber := ← fields.get "ref_block_num" .word 0
    refBlockPrefix := ← fields.get "ref_block_prefix" .word 0
    signatures := ← fields.get "signatures" (.list .text) [] }

/-- The fields of a transaction as they are written. -/
def json (tx : Transaction) : Json :=
  .obj [
    ("block_num", ofNat tx.blockNumber),
    ("trxid", .str tx.id),
    ("contract_id", .str tx.contractId),
    ("index_in_block", ofNat tx.indexInBlock),
    ("expiration", .str tx.expiration),
    ("extensions", .arr tx.extensions),
    ("operation_results", .arr tx.operationResults),
    ("operations", .arr tx.operations),
    ("ref_block_num", ofNat tx.refBlockNumber),
    ("ref_block_prefix", ofNat tx.refBlockPrefix),
    ("signatures", ofTexts tx.signatures)]

end Transaction

/-- A block. It reports the id of the block before it, never its own. -/
structure Block where
  number : Nat := 0
  previous : String := ""
  timestamp : String := ""
  miner : String := ""
  minerSignature : String := ""
  nextSecretHash : String := ""
  previousSecret : String := ""
  merkleRoot : String := ""
  fee : Nat := 0
  transactions : List Transaction := []
  transactionIds : List String := []
  extensions : List Json := []
deriving Repr, Inhabited

namespace Block

/-- The names of a block's fields, in the order of the wire. -/
def fieldNames : List String :=
  ["block_number", "previous", "timestamp", "miner", "miner_signature", "next_secret_hash",
    "previous_secret", "transaction_merkle_root", "trxfee", "transactions", "transaction_ids",
    "extensions"]

/-- Read a block; a field that is left out is empty or zero. -/
def read : Reader Block := fun d => do
  let fields ← fields? fieldNames d
  some {
    number := ← fields.get "block_number" .word 0
    previous := ← fields.get "previous" .text ""
    timestamp := ← fields.get "timestamp" .text ""
    miner := ← fields.get "miner" .text ""
    minerSignature := ← fields.get "miner_signature" .text ""
    nextSecretHash := ← fields.get "next_secret_hash" .text ""
    previousSecret := ← fields.get "previous_secret" .text ""
    merkleRoot := ← fields.get "transaction_merkle_root" .text ""
    fee := ← fields.get "trxfee" .word 0
    transactions := ← fields.get "transactions" (.list Transaction.read) []
    transactionIds := ← fields.get "transaction_ids" (.list .text) []
    extensions := ← fields.get "extensions" (.list .value) [] }

/-- The fields of a block as they are written. -/
def json (block : Block) : Json :=
  .obj [
    ("block_number", ofNat block.number),
    ("previous", .str block.previous),
    ("timestamp", .str block.timestamp),
    ("miner", .str block.miner),
    ("miner_signature", .str block.minerSignature),
    ("next_secret_hash", .str block.nextSecretHash),
    ("previous_secret", .str block.previousSecret),
    ("transaction_merkle_root", .str block.merkleRoot),
    ("trxfee", ofNat block.fee),
    ("transactions", .arr (block.transactions.map Transaction.json)),
    ("transaction_ids", ofTexts block.transactionIds),
    ("extensions", .arr block.extensions)]

/-- A transaction with its position in a block, and with the id listed for that position if it has
none of its own. -/
def place (number : Nat) (ids : List String) (tx : Transaction) (index : Nat) : Transaction :=
  { tx with
    blockNumber := number
    indexInBlock := index
    id := if tx.id = "" then (ids[index]?).getD tx.id else tx.id }

/-- The block with the position of every transaction taken from the block itself. -/
def placeAll (block : Block) : Block :=
  { block with
    transactions := block.transactions.mapIdx fun index tx =>
      place block.number block.transactionIds tx index }

end Block

/-- What the node says about one transaction of a block. -/
structure TransactionInfo where
  blockNumber : Nat := 0
  id : String := ""
  contractId : String := ""
deriving Repr, Inhabited

namespace TransactionInfo

/-- The names of the fields, in the order of the wire. -/
def fieldNames : List String := ["block_num", "trxid", "contract_id"]

/-- Read the facts about a transaction; a field that is left out is empty or zero. -/
def read : Reader TransactionInfo := fun d => do
  let fields ← fields? fieldNames d
  some {
    blockNumber := ← fields.get "block_num" .word 0
    id := ← fields.get "trxid" .text ""
    contractId := ← fields.get "contract_id" .text "" }

end TransactionInfo

/-- The block with the ids the node lists for its transactions and the facts it gives about them. -/
def Block.withInfos (block : Block) (infos : List TransactionInfo) : Block :=
  { block with
    transactionIds := infos.map (·.id)
    transactions := block.transactions.mapIdx fun index tx =>
      match infos[index]? with
      | none => { tx with indexInBlock := index }
      | some info =>
        { tx with
          indexInBlock := index
          id := info.id
          blockNumber := info.blockNumber
          contractId := info.contractId } }

end ChainIndex
