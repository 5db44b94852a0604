import ChainIndex.Json.Record
import ChainIndex.Json.Text
import ChainIndex.Time

/-!
# Stored records

The rows of the fixed tables, and the columns and cells of the wide tables. Integers lie in the
range of their columns; the conversions that make records check that. A record is written and read
as an object of its columns, all of which have to be there unless they are optional, or as a list of
them, which has to be complete.
-/

namespace ChainIndex

open Json (Document Reader allFields?)

/-- The least integer of a 32-bit column, `-2 ^ 31`. -/
def int32Min : Int := -2147483648

/-- The greatest integer of a 32-bit column, `2 ^ 31 - 1`. -/
def int32Max : Int := 2147483647

namespace Json.Reader

/-- An integer of a 64-bit column. -/
def int64 : Reader Int := integer int64Min int64Max

/-- An integer of a 32-bit column. -/
def int32 : Reader Int := integer int32Min int32Max

end Json.Reader

/-! ## The chain -/

/-- A scanned block. Its own id stays empty until the next block reports it. -/
structure BlockRecord where
  number : Int
  previous : String
  timestamp : String
  fee : Int
  miner : String
  merkleRoot : String
  nextSecretHash : String
  id : String
  reward : Int
  transactionCount : Int
deriving DecidableEq, Repr

namespace BlockRecord

/-- The record as an object of its columns. -/
def json (r : BlockRecord) : Json :=
  .obj [("number", .int r.number), ("previous", .str r.previous), ("timestamp", .str r.timestamp),
    ("trxfee", .int r.fee), ("miner", .str r.miner), ("transaction_merkle_root", .str r.merkleRoot),
    ("next_secret_hash", .str r.nextSecretHash), ("block_id", .str r.id), ("reward", .int r.reward),
    ("txs_count", .int r.transactionCount)]

/-- The names of the columns. -/
def columnNames : List String :=
  ["number", "previous", "timestamp", "trxfee", "miner", "transaction_merkle_root",
    "next_secret_hash", "block_id", "reward", "txs_count"]

/-- Read a record. -/
def read : Reader BlockRecord := fun d => do
  let fields ← allFields? columnNames d
  some {
    number := ← fields.need "number" .int64
    previous := ← fields.need "previous" .text
    timestamp := ← fields.need "timestamp" .text
    fee := ← fields.need "trxfee" .int64
    miner := ← fields.need "miner" .text
    merkleRoot := ← fields.need "transaction_merkle_root" .text
    nextSecretHash := ← fields.need "next_secret_hash" .text
    id := ← fields.need "block_id" .text
    reward := ← fields.need "reward" .int64
    transactionCount := ← fields.need "txs_count" .int32 }

end BlockRecord

/-- The header of a transaction. -/
structure TransactionRecord where
  id : String
  blockNumber : Int
  refBlockNumber : Int
  refBlockPrefix : Int
  expiration : String
  operationCount : Int
  indexInBlock : Int
  /-- Minus one for a transaction whose first operation shows no type. -/
  leadingType : Int
deriving DecidableEq, Repr

namespace TransactionRecord

/-- The record as an object of its columns. -/
def json (r : TransactionRecord) : Json :=
  .obj [("txid", .str r.id), ("block_num", .int r.blockNumber),
    ("ref_block_num", .int r.refBlockNumber), ("ref_block_prefix", .int r.refBlockPrefix),
    ("expiration", .str r.expiration), ("operations_count", .int r.operationCount),
    ("index_in_block", .int r.indexInBlock), ("first_operation_type", .int r.leadingType)]

/-- The names of the columns. -/
def columnNames : List String :=
  ["txid", "block_num", "ref_block_num", "ref_block_prefix", "expiration", "operations_count",
    "index_in_block", "first_operation_type"]

/-- Read a record. -/
def read : Reader TransactionRecord := fun d => do
  let fields ← allFields? columnNames d
  some {
    id := ← fields.need "txid" .text
    blockNumber := ← fields.need "block_num" .int64
    refBlockNumber := ← fields.need "ref_block_num" .int64
    refBlockPrefix := ← fields.need "ref_block_prefix" .int64
    expiration := ← fields.need "expiration" .text
    operationCount := ← fields.need "operations_count" .int32
    indexInBlock := ← fields.need "index_in_block" .int32
    leadingType := ← fields.need "first_operation_type" .int32 }

end TransactionRecord

/-- An operation of any type. -/
structure OperationRecord where
  id : String
  transaction : String
  blockNumber : Int
  transactionIndex : Int
  index : Int
  typeCode : Int
  typeName : String
  payload : String
  address : String
deriving DecidableEq, Repr

namespace OperationRecord

/-- The record as an object of its columns. -/
def json (r : OperationRecord) : Json :=
  .obj [("id", .str r.id), ("txid", .str r.transaction), ("tx_block_number", .int r.blockNumber),
    ("tx_index_in_block", .int r.transactionIndex), ("index_in_tx", .int r.index),
    ("operation_type", .int r.typeCode), ("operation_type_name", .str r.typeName),
    ("operation_json", .str r.payload), ("addr", .str r.address)]

/-- The names of the columns. -/
def columnNames : List String :=
  ["id", "txid", "tx_block_number", "tx_index_in_block", "index_in_tx", "operation_type",
    "operation_type_name", "operation_json", "addr"]

/-- Read a record. -/
def read : Reader OperationRecord := fun d => do
  let fields ← allFields? columnNames d
  some {
    id := ← fields.need "id" .text
    transaction := ← fields.need "txid" .text
    blockNumber := ← fields.need "tx_block_number" .int64
    transactionIndex := ← fields.need "tx_index_in_block" .int32
    index := ← fields.need "index_in_tx" .int32
    typeCode := ← fields.need "operation_type" .int32
    typeName := ← fields.need "operation_type_name" .text
    payload := ← fields.need "operation_json" .text
    address := ← fields.need "addr" .text }

end OperationRecord

/-! ## Receipts -/

/-- The receipt of a contract operation; its lists are JSON text. -/
structure ReceiptRecord where
  transaction : String
  blockNumber : Int
  operation : Int
  apiResult : String
  succeeded : Bool
  fee : Int
  invoker : String
  registered : String
  events : String
  withdrawals : String
  balanceChanges : String
  addressDeposits : String
  contractDeposits : String
  transferFees : String
deriving DecidableEq, Repr

namespace ReceiptRecord

/-- The record as an object of its columns. -/
def json (r : ReceiptRecord) : Json :=
  .obj [("trxid", .str r.transaction), ("block_num", .int r.blockNumber),
    ("op_num", .int r.operation), ("api_result", .str r.apiResult),
    ("exec_succeed", .bool r.succeeded), ("actual_fee", .int r.fee), ("invoker", .str r.invoker),
    ("contract_registered", .str r.registered), ("events", .str r.events),
    ("contract_withdraw_info", .str r.withdrawals),
    ("contract_balance_changes", .str r.balanceChanges),
    ("deposit_to_address_changes", .str r.addressDeposits),
    ("deposit_to_contract_changes", .str r.contractDeposits),
    ("transfer_fees", .str r.transferFees)]

/-- The names of the columns. -/
def columnNames : List String :=
  ["trxid", "block_num", "op_num", "api_result", "exec_succeed", "actual_fee", "invoker",
    "contract_registered", "events", "contract_withdraw_info", "contract_balance_changes",
    "deposit_to_address_changes", "deposit_to_contract_changes", "transfer_fees"]

/-- Read a record. -/
def read : Reader ReceiptRecord := fun d => do
  let fields ← allFields? columnNames d
  some {
    transaction := ← fields.need "trxid" .text
    blockNumber := ← fields.need "block_num" .int64
    operation := ← fields.need "op_num" .int32
    apiResult := ← fields.need "api_result" .text
    succeeded := ← fields.need "exec_succeed" .flag
    fee := ← fields.need "actual_fee" .int64
    invoker := ← fields.need "invoker" .text
    registered := ← fields.need "contract_registered" .text
    events := ← fields.need "events" .text
    withdrawals := ← fields.need "contract_withdraw_info" .text
    balanceChanges := ← fields.need "contract_balance_changes" .text
    addressDeposits := ← fields.need "deposit_to_address_changes" .text
    contractDeposits := ← fields.need "deposit_to_contract_changes" .text
    transferFees := ← fields.need "transfer_fees" .text }

end ReceiptRecord

/-- An event of a receipt, for look-ups by contract or caller. -/
structure EventRecord where
  transaction : String
  blockNumber : Int
  operation : Int
  caller : String
  contract : String
  argument : String
  name : String
deriving DecidableEq, Repr

namespace EventRecord

/-- The record as an object of its columns. -/
def json (r : EventRecord) : Json :=
  .obj [("trxid", .str r.transaction), ("block_num", .int r.blockNumber),
    ("op_num", .int r.operation), ("caller_addr", .str r.caller),
    ("contract_address", .str r.contract), ("event_arg", .str r.argument),
    ("event_name", .str r.name)]

/-- The names of the columns. -/
def columnNames : List String :=
  ["trxid", "block_num", "op_num", "caller_addr", "contract_address", "event_arg", "event_name"]

/-- Read a record. -/
def read : Reader EventRecord := fun d => do
  let fields ← allFields? columnNames d
  some {
    transaction := ← fields.need "trxid" .text
    blockNumber := ← fields.need "block_num" .int64
    operation := ← fields.need "op_num" .int32
    caller := ← fields.need "caller_addr" .text
    contract := ← fields.need "contract_address" .text
    argument := ← fields.need "event_arg" .text
    name := ← fields.need "event_name" .text }

end EventRecord

/-! ## Derived tables -/

/-- The name registered for an address. -/
structure AccountRecord where
  owner : String
  name : String
deriving DecidableEq, Repr

namespace AccountRecord

/-- The record as an object of its columns. -/
def json (r : AccountRecord) : Json :=
  .obj [("owner_addr", .str r.owner), ("account_name", .str r.name)]

/-- Read a record. -/
def read : Reader AccountRecord := fun d => do
  let fields ← allFields? ["owner_addr", "account_name"] d
  some {
    owner := ← fields.need "owner_addr" .text
    name := ← fields.need "account_name" .text }

end AccountRecord

/-- What is stored of a native asset. -/
structure AssetRecord where
  id : String
  symbol : String
  precision : Int
deriving DecidableEq, Repr

namespace AssetRecord

/-- The record as an object of its columns. -/
def json (r : AssetRecord) : Json :=
  .obj [("asset_id", .str r.id), ("symbol", .str r.symbol), ("precision", .int r.precision)]

/-- Read a record. -/
def read : Reader AssetRecord := fun d => do
  let fields ← allFields? ["asset_id", "symbol", "precision"] d
  some {
    id := ← fields.need "asset_id" .text
    symbol := ← fields.need "symbol" .text
    precision := ← fields.need "precision" .int32 }

end AssetRecord

/-- The latest known balance of an address in a native asset. -/
structure BalanceRecord where
  owner : String
  asset : String
  amount : String
deriving DecidableEq, Repr

namespace BalanceRecord

/-- The record as an object of its columns. -/
def json (r : BalanceRecord) : Json :=
  .obj [("owner_addr", .str r.owner), ("asset_id", .str r.asset), ("amount", .str r.amount)]

/-- Read a record. -/
def read : Reader BalanceRecord := fun d => do
  let fields ← allFields? ["owner_addr", "asset_id", "amount"] d
  some {
    owner := ← fields.need "owner_addr" .text
    asset := ← fields.need "asset_id" .text
    amount := ← fields.need "amount" .text }

end BalanceRecord

/-- A contract that was found to be a token when it was registered. -/
structure TokenRecord where
  id : String
  blockNumber : Int
  blockTime : String
  transaction : String
  contractType : String
  ownerKey : String
  owner : String
  registerTime : String
  inheritFrom : String
  gasPrice : Int
  gasLimit : Int
  state : Option String
  totalSupply : Option String
  precision : Option Int
  symbol : Option String
  name : Option String
  logo : Option String
  url : Option String
  description : Option String
deriving DecidableEq, Repr

namespace TokenRecord

/-- The record as an object of its columns. -/
def json (r : TokenRecord) : Json :=
  let text := Json.ofOption Json.str
  .obj [("contract_id", .str r.id), ("block_num", .int r.blockNumber),
    ("block_time", .str r.blockTime), ("txid", .str r.transaction),
    ("contract_type", .str r.contractType), ("owner_pubkey", .str r.ownerKey),
    ("owner_addr", .str r.owner), ("register_time", .str r.registerTime),
    ("inherit_from", .str r.inheritFrom), ("gas_price", .int r.gasPrice),
    ("gas_limit", .int r.gasLimit), ("state", text r.state), ("total_supply", text r.totalSupply),
    ("precision", Json.ofOption Json.int r.precision), ("token_symbol", text r.symbol),
    ("token_name", text r.name), ("logo", text r.logo), ("url", text r.url),
    ("description", text r.description)]

/-- The names of the columns. -/
def columnNames : List String :=
  ["contract_id", "block_num", "block_time", "txid", "contract_type", "owner_pubkey", "owner_addr",
    "register_time", "inherit_from", "gas_price", "gas_limit", "state", "total_supply", "precision",
    "token_symbol", "token_name", "logo", "url", "description"]

/-- Read a record; what is optional may be missing. -/
def read : Reader TokenRecord := fun d => do
  let fields ← allFields? columnNames d
  let text (name : String) : Option (Option String) := fields.get name (.optional .text) none
  some {
    id := ← fields.need "contract_id" .text
    blockNumber := ← fields.need "block_num" .int64
    blockTime := ← fields.need "block_time" .text
    transaction := ← fields.need "txid" .text
    contractType := ← fields.need "contract_type" .text
    ownerKey := ← fields.need "owner_pubkey" .text
    owner := ← fields.need "owner_addr" .text
    registerTime := ← fields.need "register_time" .text
    inheritFrom := ← fields.need "inherit_from" .text
    gasPrice := ← fields.need "gas_price" .int64
    gasLimit := ← fields.need "gas_limit" .int64
    state := ← text "state"
    totalSupply := ← text "total_supply"
    precision := ← fields.get "precision" (.optional .int32) none
    symbol := ← text "token_symbol"
    name := ← text "token_name"
    logo := ← text "logo"
    url := ← text "url"
    description := ← text "description" }

end TokenRecord

/-- The latest known balance of an owner in a token. -/
structure HoldingRecord where
  contract : String
  owner : String
  amount : String
deriving DecidableEq, Repr

namespace HoldingRecord

/-- The record as an object of its columns. -/
def json (r : HoldingRecord) : Json :=
  .obj [("contract_addr", .str r.contract), ("owner_addr", .str r.owner), ("amount", .str r.amount)]

/-- Read a record. -/
def read : Reader HoldingRecord := fun d => do
  let fields ← allFields? ["contract_addr", "owner_addr", "amount"] d
  some {
    contract := ← fields.need "contract_addr" .text
    owner := ← fields.need "owner_addr" .text
    amount := ← fields.need "amount" .text }

end HoldingRecord

/-- A transfer of tokens, as its event told it. -/
structure TransferRecord where
  contract : String
  sender : String
  receiver : String
  amount : String
  blockNumber : Int
  transaction : String
  operation : Int
  eventName : String
  time : Timestamp
deriving DecidableEq, Repr

namespace TransferRecord

/-- The record as an object of its columns. -/
def json (r : TransferRecord) : Json :=
  .obj [("contract_addr", .str r.contract), ("from_addr", .str r.sender),
    ("to_addr", .str r.receiver), ("amount", .str r.amount), ("block_num", .int r.blockNumber),
    ("txid", .str r.transaction), ("op_num", .int r.operation), ("event_name", .str r.eventName),
    ("tx_time", .str r.time.text)]

/-- The names of the columns. -/
def columnNames : List String :=
  ["contract_addr", "from_addr", "to_addr", "amount", "block_num", "txid", "op_num", "event_name",
    "tx_time"]

/-- Read a record. -/
def read : Reader TransferRecord := fun d => do
  let fields ← allFields? columnNames d
  some {
    contract := ← fields.need "contract_addr" .text
    sender := ← fields.need "from_addr" .text
    receiver := ← fields.need "to_addr" .text
    amount := ← fields.need "amount" .text
    blockNumber := ← fields.need "block_num" .int64
    transaction := ← fields.need "txid" .text
    operation := ← fields.need "op_num" .int32
    eventName := ← fields.need "event_name" .text
    time := ← Timestamp.ofText (← fields.need "tx_time" .text) }

end TransferRecord

/-! ## Wide tables -/

/-- The type of a column of a wide table. -/
inductive CellKind where
  | bigInt
  | text
deriving DecidableEq, Repr

namespace CellKind

/-- The type in a table's definition. -/
def declaration : CellKind → String
  | .bigInt => "BIGINT"
  | .text => "TEXT"

/-- The kind of a column that the database describes by this type. -/
def ofDataType (dataType : String) : CellKind :=
  if dataType ∈ ["bigint", "integer", "smallint"] then .bigInt else .text

end CellKind

/-- A column of a wide table. -/
structure Column where
  name : String
  kind : CellKind
deriving DecidableEq, Repr

/-- An index over some columns of a wide table. -/
structure TableIndex where
  name : String
  columns : List String
deriving DecidableEq, Repr

/-- The value of one column in one row. -/
inductive Cell where
  | bigInt (n : Option Int)
  | text (s : Option String)
deriving DecidableEq, Repr

/-- The kind of column a cell belongs in. -/
def Cell.kind : Cell → CellKind
  | .bigInt _ => .bigInt
  | .text _ => .text

/-- A row of a wide table: the columns it fills. -/
abbrev Row := List (String × Cell)

end ChainIndex
