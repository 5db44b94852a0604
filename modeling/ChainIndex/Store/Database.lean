import ChainIndex.Database.Statement
import ChainIndex.Store.Request

/-!
# A store in a database

Every request becomes statements. Inserts whose key is taken change nothing, except that balances
and config values are overwritten.
-/

namespace ChainIndex.Store

open Database (Query Statement Value commas parameters selection insertion insertRecord
  quoteIdentifier execute first all truth readRecord)

/-! ## Fixed tables -/

/-- What an insert does where the key is taken: nothing. -/
def keepOld (key : List String) : String := "(" ++ commas key ++ ") DO NOTHING"

/-- What an insert of a balance does where the key is taken: the amount is overwritten. -/
def replaceAmount (key : List String) : String :=
  "(" ++ commas key ++ ") DO UPDATE SET amount = EXCLUDED.amount, updated_at = NOW()"

/-- Find a record of a table by its key. -/
def find {α : Type} (table : String) (columns : List String) (read : Json.Reader α)
    (key : List (String × Value)) : Query (Option α) :=
  first (readRecord columns read) ⟨selection columns table (key.map (·.1)), key.map (·.2)⟩

/-- The columns of accounts. -/
def accountColumns : List String := ["owner_addr", "account_name"]

/-- The columns of assets. -/
def assetColumns : List String := ["asset_id", "symbol", "precision"]

/-- The columns of balances of addresses. -/
def balanceColumns : List String := ["owner_addr", "asset_id", "amount"]

/-- The columns of balances in tokens. -/
def holdingColumns : List String := ["contract_addr", "owner_addr", "amount"]

/-- The text under a config key. -/
def readConfig : List Value → Option String
  | .text s :: _ => some s
  | _ => none

/-- Read a transfer; its last column is a time. -/
def readTransfer (row : List Value) : Option TransferRecord :=
  let columns := TransferRecord.columnNames
  readRecord columns TransferRecord.read
    (row.mapIdx fun i v => if columns[i]? = some "tx_time" then v.asTime else v)

/-- Insert a transfer, whose time is bound as a time. -/
def insertTransfer (transfer : TransferRecord) : Statement :=
  let statement := insertRecord "token_contract_transfer_history" transfer.json
    (keepOld ["txid", "op_num"])
  -- the time is the last column
  { statement with binds := statement.binds.dropLast ++ [.time transfer.time.micros] }

/-- Write what can change about a token. -/
def updateToken (token : TokenRecord) : Statement :=
  let fields := (token.json.members?).getD []
  let changing :=
    ["state", "total_supply", "precision", "token_symbol", "token_name", "logo", "url",
      "description"]
  let assignments := changing.mapIdx fun i column => column ++ " = " ++ parameters i 1
  ⟨"UPDATE token_contract SET " ++ commas assignments ++ " WHERE contract_id = " ++
      parameters changing.length 1,
    (changing ++ ["contract_id"]).map fun column =>
      Value.ofJson ((fields.lookup column).getD .null)⟩

/-! ## Receipts -/

/-- Insert the events of a receipt with one statement. -/
def insertEvents (events : List EventRecord) : Statement :=
  let columns := EventRecord.columnNames
  -- the parameters are numbered through all rows
  let groups := events.mapIdx fun i _ =>
    "(" ++ parameters (i * columns.length) columns.length ++ ")"
  let fields (event : EventRecord) : Members := (event.json.members?).getD []
  ⟨"INSERT INTO contract_operation_receipt_event (" ++ commas columns ++ ") VALUES " ++
      commas groups,
    events.flatMap fun event => (fields event).map fun field => Value.ofJson field.2⟩

/-- Insert a receipt and its events together, so that neither is ever there without the other. -/
def insertReceipt (receipt : ReceiptRecord) (events : List EventRecord) : Query Unit :=
  Database.atomically do
    execute (insertRecord "contract_operation_receipt" receipt.json (keepOld ["trxid", "op_num"]))
    if events.isEmpty then pure () else execute (insertEvents events)

/-! ## Wide tables -/

/-- Whether the connection's own schema has a table. -/
def tableLookup (table : String) : Statement :=
  ⟨"SELECT EXISTS ( SELECT 1 FROM information_schema.tables WHERE table_type = 'BASE TABLE' AND " ++
      "table_schema = current_schema() AND table_name = $1 )",
    [.text table]⟩

/-- The columns of a table of the connection's own schema, in the order of their declaration. -/
def columnListing (table : String) : Statement :=
  ⟨"SELECT column_name::TEXT, data_type::TEXT FROM information_schema.columns WHERE " ++
      "table_schema = current_schema() AND table_name = $1 ORDER BY ordinal_position",
    [.text table]⟩

/-- Read the name and the type of a column. -/
def readColumn : List Value → Option Column
  | .text name :: .text dataType :: _ => some ⟨name, .ofDataType dataType⟩
  | _ => none

/-- Create a wide table. -/
def tableCreation (table : String) (columns : List Column) : Statement :=
  let declare (c : Column) : String :=
    quoteIdentifier c.name ++ " " ++ c.kind.declaration ++ " NULL"
  ⟨"CREATE TABLE IF NOT EXISTS " ++ quoteIdentifier table ++ " (" ++
      commas (columns.map declare) ++ ")",
    []⟩

/-- Create the index of a wide table. -/
def indexCreation (table : String) (index : TableIndex) : Statement :=
  ⟨"CREATE INDEX IF NOT EXISTS " ++ quoteIdentifier index.name ++ " ON " ++ quoteIdentifier table ++
      " (" ++ commas (index.columns.map quoteIdentifier) ++ ")",
    []⟩

/-- Whether a wide table has a row for an operation. -/
def rowLookup (table transaction : String) (index : Int) : Statement :=
  ⟨"SELECT EXISTS (SELECT 1 FROM " ++ quoteIdentifier table ++
      " WHERE txid = $1 AND index_in_tx = $2)",
    [.text transaction, .int index]⟩

/-- The value that a cell binds. -/
def cellValue : Cell → Value
  | .bigInt (some n) => .int n
  | .text (some s) => .text s
  | .bigInt none => .null
  | .text none => .null

/-- Insert a row of a wide table. -/
def rowInsertion (table : String) (row : Row) : Statement :=
  ⟨"INSERT INTO " ++ quoteIdentifier table ++ " (" ++
      commas (row.map fun cell => quoteIdentifier cell.1) ++ ") VALUES (" ++
      parameters 0 row.length ++ ")",
    row.map fun cell => cellValue cell.2⟩

/-! ## Requests -/

/-- Answer a request to the store by statements. -/
def ofDatabase : (request : Request) → Query request.Result
  | .config key =>
    first readConfig
      ⟨selection ["config_value"] "scan_configs" ["config_key"], [.text key]⟩
  | .putConfig key value =>
    execute ⟨insertion "scan_configs" ["config_key", "config_value"]
      "(config_key) DO UPDATE SET config_value = EXCLUDED.config_value", [.text key, .text value]⟩
  | .block number =>
    find "blocks" BlockRecord.columnNames BlockRecord.read [("number", .int number)]
  | .addBlock block => execute (insertRecord "blocks" block.json (keepOld ["number"]))
  | .setBlockId number id =>
    execute ⟨"UPDATE blocks SET block_id = $1 WHERE number = $2", [.text id, .int number]⟩
  | .transaction id =>
    find "transactions" TransactionRecord.columnNames TransactionRecord.read [("txid", .text id)]
  | .addTransaction tx => execute (insertRecord "transactions" tx.json (keepOld ["txid"]))
  | .operation id =>
    find "operations" OperationRecord.columnNames OperationRecord.read [("id", .text id)]
  | .addOperation operation => execute (insertRecord "operations" operation.json (keepOld ["id"]))
  | .hasTable table => truth (tableLookup table)
  | .addTable table columns index => do
    execute (tableCreation table columns)
    execute (indexCreation table index)
  | .columns table => all readColumn (columnListing table)
  | .hasRow table transaction index => truth (rowLookup table transaction index)
  | .addRow table row => if row.isEmpty then pure () else execute (rowInsertion table row)
  | .hasReceipt transaction operation =>
    truth ⟨"SELECT EXISTS (SELECT 1 FROM contract_operation_receipt WHERE trxid = $1 AND " ++
      "op_num = $2)", [.text transaction, .int operation]⟩
  | .addReceipt receipt events => insertReceipt receipt events
  | .account owner => find "account" accountColumns AccountRecord.read [("owner_addr", .text owner)]
  | .addAccount account => execute (insertRecord "account" account.json (keepOld ["owner_addr"]))
  | .asset id => find "asset" assetColumns AssetRecord.read [("asset_id", .text id)]
  | .addAsset asset => execute (insertRecord "asset" asset.json (keepOld ["asset_id"]))
  | .balance owner asset =>
    find "address_balance" balanceColumns BalanceRecord.read
      [("owner_addr", .text owner), ("asset_id", .text asset)]
  | .putBalance balance =>
    execute (insertRecord "address_balance" balance.json (replaceAmount ["owner_addr", "asset_id"]))
  | .token id =>
    find "token_contract" TokenRecord.columnNames TokenRecord.read [("contract_id", .text id)]
  | .addToken token =>
    execute (insertRecord "token_contract" token.json (keepOld ["contract_id"]))
  | .setToken token => execute (updateToken token)
  | .holding contract owner =>
    find "token_balance" holdingColumns HoldingRecord.read
      [("contract_addr", .text contract), ("owner_addr", .text owner)]
  | .putHolding balance =>
    execute (insertRecord "token_balance" balance.json
      (replaceAmount ["contract_addr", "owner_addr"]))
  | .transfer transaction operation =>
    first readTransfer ⟨selection TransferRecord.columnNames "token_contract_transfer_history"
      ["txid", "op_num"], [.text transaction, .int operation]⟩
  | .addTransfer transfer => execute (insertTransfer transfer)

end ChainIndex.Store
