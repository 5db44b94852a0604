import ChainIndex.Database.Statement

/-!
# The schema of the fixed tables

The tables, their columns and indexes, and the script that creates them. In the script the names
of a table's columns are padded to one width, and a blank line separates the tables.
-/

namespace ChainIndex.Store.Schema

open Database (commas)

/-- A column and what is said about it. -/
structure FixedColumn where
  name : String
  definition : String
deriving DecidableEq, Repr

/-- A fixed table. -/
structure FixedTable where
  name : String
  columns : List FixedColumn
  /-- Columns that no two rows agree in. -/
  unique : Option (List String) := none
  /-- The least width of the names in the script. -/
  width : Nat := 0
deriving DecidableEq, Repr

/-- An index on a fixed table. -/
structure FixedIndex where
  name : String
  table : String
  columns : List String
deriving DecidableEq, Repr

/-- A table and the indexes on it. -/
structure Group where
  table : FixedTable
  indexes : List FixedIndex := []
deriving DecidableEq, Repr

/-- Tables that belong together, under a title. -/
structure Chapter where
  title : String
  groups : List Group
deriving DecidableEq, Repr

/-- A number that the database gives to every row. -/
def rowNumber : FixedColumn := ⟨"id", "BIGSERIAL PRIMARY KEY"⟩

/-- When a row was written. -/
def createdAt : FixedColumn := ⟨"created_at", "TIMESTAMP NOT NULL DEFAULT NOW()"⟩

/-- When a row was overwritten last. -/
def updatedAt : FixedColumn := ⟨"updated_at", "TIMESTAMP NOT NULL DEFAULT NOW()"⟩

/-- A text. -/
def text (name : String) : FixedColumn := ⟨name, "TEXT NOT NULL"⟩

/-- A text that is empty or a given one if it is left out. -/
def textOr (fallback name : String) : FixedColumn :=
  ⟨name, "TEXT NOT NULL DEFAULT '" ++ fallback ++ "'"⟩

/-- A text that may be missing. -/
def optionalText (name : String) : FixedColumn := ⟨name, "TEXT"⟩

/-- An integer of 64 bits. -/
def bigInt (name : String) : FixedColumn := ⟨name, "BIGINT NOT NULL"⟩

/-- An integer of 64 bits that is zero if it is left out. -/
def bigIntOrZero (name : String) : FixedColumn := ⟨name, "BIGINT NOT NULL DEFAULT 0"⟩

/-- An integer of 32 bits. -/
def integer (name : String) : FixedColumn := ⟨name, "INTEGER NOT NULL"⟩

/-- The tables of a scanner. -/
def chapters : List Chapter := [
  { title := "Scanner bookkeeping"
    groups := [
      { table := {
          name := "scan_configs"
          columns := [rowNumber, ⟨"config_key", "TEXT NOT NULL UNIQUE"⟩, text "config_value",
            createdAt, updatedAt]
          width := 16 } }] },
  { title := "Chain data"
    groups := [
      { table := {
          name := "blocks"
          columns := [⟨"number", "BIGINT PRIMARY KEY"⟩, text "previous", text "timestamp",
            bigIntOrZero "trxfee", text "miner", text "transaction_merkle_root",
            text "next_secret_hash", textOr "" "block_id", bigIntOrZero "reward",
            ⟨"txs_count", "INTEGER NOT NULL DEFAULT 0"⟩, createdAt] } },
      { table := {
          name := "transactions"
          columns := [⟨"txid", "TEXT PRIMARY KEY"⟩, bigInt "block_num", bigInt "ref_block_num",
            bigInt "ref_block_prefix", text "expiration", integer "operations_count",
            integer "index_in_block", integer "first_operation_type", createdAt] }
        indexes := [⟨"idx_transactions_block", "transactions", ["block_num"]⟩] },
      { table := {
          name := "operations"
          columns := [⟨"id", "TEXT PRIMARY KEY"⟩, text "txid", bigInt "tx_block_number",
            integer "tx_index_in_block", integer "index_in_tx", integer "operation_type",
            text "operation_type_name", text "operation_json", textOr "" "addr", createdAt] }
        indexes := [
          ⟨"idx_operations_txid", "operations", ["txid"]⟩,
          ⟨"idx_operations_addr", "operations", ["addr"]⟩] },
      { table := {
          name := "contract_operation_receipt"
          columns := [rowNumber, text "trxid", bigInt "block_num", integer "op_num",
            textOr "" "api_result", ⟨"exec_succeed", "BOOLEAN NOT NULL"⟩, bigIntOrZero "actual_fee",
            textOr "" "invoker", textOr "" "contract_registered", textOr "[]" "events",
            textOr "[]" "contract_withdraw_info", textOr "[]" "contract_balance_changes",
            textOr "[]" "deposit_to_address_changes", textOr "[]" "deposit_to_contract_changes",
            textOr "[]" "transfer_fees", createdAt]
          unique := some ["trxid", "op_num"] } },
      { table := {
          name := "contract_operation_receipt_event"
          columns := [rowNumber, text "trxid", bigInt "block_num", integer "op_num",
            textOr "" "caller_addr", textOr "" "contract_address", textOr "" "event_arg",
            textOr "" "event_name", createdAt] }
        indexes := [
          ⟨"idx_receipt_event_trx", "contract_operation_receipt_event", ["trxid", "op_num"]⟩,
          ⟨"idx_receipt_event_contract", "contract_operation_receipt_event",
            ["contract_address"]⟩,
          ⟨"idx_receipt_event_caller", "contract_operation_receipt_event", ["caller_addr"]⟩] }] },
  { title := "Derived state"
    groups := [
      { table := {
          name := "account"
          columns := [rowNumber, ⟨"owner_addr", "TEXT NOT NULL UNIQUE"⟩, text "account_name",
            createdAt] } },
      { table := {
          name := "asset"
          columns := [⟨"asset_id", "TEXT PRIMARY KEY"⟩, text "symbol", integer "precision",
            createdAt] } },
      { table := {
          name := "address_balance"
          columns := [rowNumber, text "owner_addr", text "asset_id", text "amount", createdAt,
            updatedAt]
          unique := some ["owner_addr", "asset_id"] } },
      { table := {
          name := "token_contract"
          columns := [rowNumber, ⟨"contract_id", "TEXT NOT NULL UNIQUE"⟩, bigInt "block_num",
            text "block_time", text "txid", text "contract_type", textOr "" "owner_pubkey",
            textOr "" "owner_addr", textOr "" "register_time", textOr "" "inherit_from",
            bigIntOrZero "gas_price", bigIntOrZero "gas_limit", optionalText "state",
            optionalText "total_supply", ⟨"precision", "INTEGER"⟩, optionalText "token_symbol",
            optionalText "token_name", optionalText "logo", optionalText "url",
            optionalText "description", createdAt] }
        indexes := [⟨"idx_token_contract_owner", "token_contract", ["owner_addr"]⟩] },
      { table := {
          name := "token_balance"
          columns := [rowNumber, text "contract_addr", text "owner_addr", text "amount", createdAt,
            updatedAt]
          unique := some ["contract_addr", "owner_addr"] }
        indexes := [⟨"idx_token_balance_owner", "token_balance", ["owner_addr"]⟩] },
      { table := {
          name := "token_contract_transfer_history"
          columns := [rowNumber, text "contract_addr", text "from_addr", text "to_addr",
            text "amount", bigInt "block_num", text "txid", integer "op_num", text "event_name",
            ⟨"tx_time", "TIMESTAMP NOT NULL"⟩, createdAt]
          unique := some ["txid", "op_num"] }
        indexes := [
          ⟨"idx_transfer_history_contract", "token_contract_transfer_history",
            ["contract_addr"]⟩,
          ⟨"idx_transfer_history_from", "token_contract_transfer_history", ["from_addr"]⟩,
          ⟨"idx_transfer_history_to", "token_contract_transfer_history", ["to_addr"]⟩] }] }]

/-- The names of the fixed tables. -/
def tableNames : List String :=
  chapters.flatMap fun chapter => chapter.groups.map fun group => group.table.name

/-! ## The script -/

/-- The line of a column, its name padded to a width. -/
def columnLine (width : Nat) (column : FixedColumn) : String :=
  column.name.pushn ' ' (width - column.name.length) ++ column.definition

/-- The statement that creates a table. -/
def tableScript (table : FixedTable) : String :=
  let width := max table.width
    (1 + table.columns.foldl (fun longest c => max longest c.name.length) 0)
  let unique := match table.unique with
    | none => []
    | some columns => ["UNIQUE (" ++ commas columns ++ ")"]
  "CREATE TABLE IF NOT EXISTS " ++ table.name ++ " (\n    " ++
    ",\n    ".intercalate (table.columns.map (columnLine width) ++ unique) ++ "\n);"

/-- The statement that creates an index. -/
def indexScript (index : FixedIndex) : String :=
  "CREATE INDEX IF NOT EXISTS " ++ index.name ++ " ON " ++ index.table ++ " (" ++
    commas index.columns ++ ");"

/-- The statements of a group. -/
def groupScript (group : Group) : String :=
  tableScript group.table ++
    (if group.indexes.isEmpty then "" else
      "\n\n" ++ "\n".intercalate (group.indexes.map indexScript))

/-- The statements of a chapter, under a comment with its title. -/
def chapterScript (chapter : Chapter) : String :=
  "-- " ++ chapter.title ++ "\n" ++ "\n\n".intercalate (chapter.groups.map groupScript)

/-- The script that creates the fixed tables. -/
def script : String := "\n\n".intercalate (chapters.map chapterScript) ++ "\n"

end ChainIndex.Store.Schema
