import ChainIndex.Store.Request

/-!
# A store in memory

Records lie in the order in which they were inserted, blocks by number. An insert whose key is
taken fails, except that an asset already known stays as it is, and so does an insert into a wide
table that does not exist or lacks one of the row's columns. A request that fails changes nothing.
-/

namespace ChainIndex.Store

/-- A wide table. -/
structure Table where
  columns : List Column
  index : Option TableIndex
  rows : List Row
deriving DecidableEq, Repr

/-- The value of a column in every row, or nothing where a row leaves it out. -/
def Table.cellsOf (table : Table) (column : String) : List (Option Cell) :=
  table.rows.map fun row => row.lookup column

/-- What a store holds. -/
structure Memory where
  configs : List (String × String) := []
  blocks : List BlockRecord := []
  transactions : List TransactionRecord := []
  operations : List OperationRecord := []
  tables : List (String × Table) := []
  receipts : List ReceiptRecord := []
  events : List EventRecord := []
  accounts : List AccountRecord := []
  assets : List AssetRecord := []
  balances : List BalanceRecord := []
  tokens : List TokenRecord := []
  holdings : List HoldingRecord := []
  transfers : List TransferRecord := []
  /-- How often the columns of a table were asked for. -/
  columnQueries : Nat := 0
  /-- How often a config value was written. -/
  configWrites : Nat := 0
  /-- Tables whose inserts fail. -/
  failing : List String := []
deriving DecidableEq, Repr

namespace Memory

/-- The empty store. -/
def empty : Memory := {}

/-! ## Lists of records with a key -/

/-- Replace the value of a key, or add the key at the end. -/
def putEntry {α : Type} (key : String) (value : α) : List (String × α) → List (String × α)
  | [] => [(key, value)]
  | (k, v) :: rest => if k = key then (k, value) :: rest else (k, v) :: putEntry key value rest

/-- Change the first record that has a property. -/
def updateFirst {α : Type} (p : α → Bool) (f : α → α) : List α → List α
  | [] => []
  | a :: rest => if p a then f a :: rest else a :: updateFirst p f rest

/-- Change the first record that has a property, or add one at the end. -/
def upsert {α : Type} (p : α → Bool) (f : α → α) (a : α) (records : List α) : List α :=
  if records.any p then updateFirst p f records else records ++ [a]

/-- Insert a block at its place in the order of numbers. -/
def insertByNumber (block : BlockRecord) : List BlockRecord → List BlockRecord
  | [] => [block]
  | b :: rest =>
    if block.number < b.number then block :: b :: rest else b :: insertByNumber block rest

/-! ## Failures -/

/-- A key that is taken. -/
def taken (table key : String) : Error :=
  .store ("duplicate key value violates unique constraint on " ++ table ++ ": " ++ key)

/-- A wide table that does not exist. -/
def missingTable (table : String) : Error :=
  .store ("relation \"" ++ table ++ "\" does not exist")

/-- A column that a wide table does not have. -/
def missingColumn (table column : String) : Error :=
  .store ("column \"" ++ column ++ "\" of relation \"" ++ table ++ "\" does not exist")

/-- A table whose inserts fail. -/
def failedInsert (table : String) : Error :=
  .store ("insert into \"" ++ table ++ "\" failed")

/-- The key of something that belongs to one operation. -/
def operationKey (transaction : String) (operation : Int) : String :=
  transaction ++ "#" ++ toString operation

/-! ## Reading -/

/-- The block of a number. -/
def block? (m : Memory) (number : Int) : Option BlockRecord :=
  m.blocks.find? (·.number == number)

/-- The transaction of an id. -/
def transaction? (m : Memory) (id : String) : Option TransactionRecord :=
  m.transactions.find? (·.id == id)

/-- The operation of an id. -/
def operation? (m : Memory) (id : String) : Option OperationRecord :=
  m.operations.find? (·.id == id)

/-- The wide table of a name. -/
def table? (m : Memory) (name : String) : Option Table := m.tables.lookup name

/-- Whether a row carries this position in the chain. -/
def isAt (transaction : String) (index : Int) (row : Row) : Bool :=
  row.any (fun cell => cell.1 == "txid" && cell.2 == .text (some transaction)) &&
    row.any (fun cell => cell.1 == "index_in_tx" && cell.2 == .bigInt (some index))

/-- Whether a receipt is stored for an operation. -/
def hasReceipt (m : Memory) (transaction : String) (operation : Int) : Bool :=
  m.receipts.any fun r => r.transaction == transaction && r.operation == operation

/-- The account of an address. -/
def account? (m : Memory) (owner : String) : Option AccountRecord :=
  m.accounts.find? (·.owner == owner)

/-- The asset of an id. -/
def asset? (m : Memory) (id : String) : Option AssetRecord :=
  m.assets.find? (·.id == id)

/-- The balance of an address in an asset. -/
def balance? (m : Memory) (owner asset : String) : Option BalanceRecord :=
  m.balances.find? fun b => b.owner == owner && b.asset == asset

/-- The token of a contract id. -/
def token? (m : Memory) (id : String) : Option TokenRecord :=
  m.tokens.find? (·.id == id)

/-- The balance of an owner in a token. -/
def holding? (m : Memory) (contract owner : String) : Option HoldingRecord :=
  m.holdings.find? fun b => b.contract == contract && b.owner == owner

/-- The transfer recorded for an operation. -/
def transfer? (m : Memory) (transaction : String) (operation : Int) : Option TransferRecord :=
  m.transfers.find? fun t => t.transaction == transaction && t.operation == operation

/-! ## Writing -/

/-- Write a config value. -/
def putConfig (m : Memory) (key value : String) : Memory :=
  { m with configs := putEntry key value m.configs, configWrites := m.configWrites + 1 }

/-- Insert a block whose number is free. -/
def addBlock (m : Memory) (block : BlockRecord) : Except Error Memory :=
  if m.blocks.any (·.number == block.number) then
    .error (taken "blocks" (toString block.number))
  else .ok { m with blocks := insertByNumber block m.blocks }

/-- Set the id of a block, if it is there. -/
def setBlockId (m : Memory) (number : Int) (id : String) : Memory :=
  { m with blocks := updateFirst (·.number == number) ({ · with id := id }) m.blocks }

/-- Insert a transaction whose id is free. -/
def addTransaction (m : Memory) (tx : TransactionRecord) : Except Error Memory :=
  if m.transactions.any (·.id == tx.id) then .error (taken "transactions" tx.id)
  else .ok { m with transactions := m.transactions ++ [tx] }

/-- Insert an operation whose id is free. -/
def addOperation (m : Memory) (operation : OperationRecord) : Except Error Memory :=
  if m.operations.any (·.id == operation.id) then .error (taken "operations" operation.id)
  else .ok { m with operations := m.operations ++ [operation] }

/-- Create a wide table, unless it is there. -/
def addTable (m : Memory) (name : String) (columns : List Column) (index : TableIndex) :
    Memory :=
  if (m.table? name).isSome then m
  else { m with tables := m.tables ++ [(name, ⟨columns, some index, []⟩)] }

/-- Add a row to a wide table that has its columns. -/
def addRow (m : Memory) (name : String) (row : Row) : Except Error Memory :=
  if m.failing.contains name then .error (failedInsert name)
  else
    match m.table? name with
    | none => .error (missingTable name)
    | some table =>
      -- the first column that is missing is the one complained of
      match row.find? fun cell => !table.columns.any (·.name == cell.1) with
      | some (column, _) => .error (missingColumn name column)
      | none =>
        .ok { m with tables := putEntry name { table with rows := table.rows ++ [row] } m.tables }

/-- Insert the receipt of an operation that has none, with its events. -/
def addReceipt (m : Memory) (receipt : ReceiptRecord) (events : List EventRecord) :
    Except Error Memory :=
  if m.hasReceipt receipt.transaction receipt.operation then
    .error (taken "contract_operation_receipt"
      (operationKey receipt.transaction receipt.operation))
  else .ok { m with receipts := m.receipts ++ [receipt], events := m.events ++ events }

/-- Insert an account whose address is free. -/
def addAccount (m : Memory) (account : AccountRecord) : Except Error Memory :=
  if m.accounts.any (·.owner == account.owner) then .error (taken "account" account.owner)
  else .ok { m with accounts := m.accounts ++ [account] }

/-- Insert an asset, unless its id is taken. -/
def addAsset (m : Memory) (asset : AssetRecord) : Memory :=
  if m.assets.any (·.id == asset.id) then m else { m with assets := m.assets ++ [asset] }

/-- Set the balance of an address in an asset. -/
def putBalance (m : Memory) (balance : BalanceRecord) : Memory :=
  { m with
    balances := upsert (fun b => b.owner == balance.owner && b.asset == balance.asset)
      ({ · with amount := balance.amount }) balance m.balances }

/-- Insert a token whose contract id is free. -/
def addToken (m : Memory) (token : TokenRecord) : Except Error Memory :=
  if m.tokens.any (·.id == token.id) then .error (taken "token_contract" token.id)
  else .ok { m with tokens := m.tokens ++ [token] }

/-- Replace the record of a token, if it is there. -/
def setToken (m : Memory) (token : TokenRecord) : Memory :=
  { m with tokens := updateFirst (·.id == token.id) (fun _ => token) m.tokens }

/-- Set the balance of an owner in a token. -/
def putHolding (m : Memory) (balance : HoldingRecord) : Memory :=
  { m with
    holdings := upsert (fun b => b.contract == balance.contract && b.owner == balance.owner)
      ({ · with amount := balance.amount }) balance m.holdings }

/-- Insert the transfer of an operation that has none. -/
def addTransfer (m : Memory) (transfer : TransferRecord) : Except Error Memory :=
  if m.transfers.any fun t =>
      t.transaction == transfer.transaction && t.operation == transfer.operation then
    .error (taken "token_contract_transfer_history"
      (operationKey transfer.transaction transfer.operation))
  else .ok { m with transfers := m.transfers ++ [transfer] }

/-- Let every later insert into a wide table fail. -/
def failInserts (m : Memory) (table : String) : Memory :=
  { m with failing := table :: m.failing }

/-! ## Answering requests -/

/-- The reply to a write that may fail, and the store after it. -/
def written (m : Memory) : Except Error Memory → Except Error Unit × Memory
  | .ok m' => (.ok (), m')
  | .error e => (.error e, m)

/-- The reply to a request, and the store after it. -/
def answer : (request : Request) → Memory → Except Error request.Result × Memory
  | .config key, m => (.ok (m.configs.lookup key), m)
  | .putConfig key value, m => (.ok (), m.putConfig key value)
  | .block number, m => (.ok (m.block? number), m)
  | .addBlock block, m => m.written (m.addBlock block)
  | .setBlockId number id, m => (.ok (), m.setBlockId number id)
  | .transaction id, m => (.ok (m.transaction? id), m)
  | .addTransaction tx, m => m.written (m.addTransaction tx)
  | .operation id, m => (.ok (m.operation? id), m)
  | .addOperation operation, m => m.written (m.addOperation operation)
  | .hasTable table, m => (.ok (m.table? table).isSome, m)
  | .addTable table columns index, m => (.ok (), m.addTable table columns index)
  | .columns table, m =>
    (.ok (((m.table? table).map (·.columns)).getD []),
      { m with columnQueries := m.columnQueries + 1 })
  | .hasRow table transaction index, m =>
    match m.table? table with
    | none => (.error (missingTable table), m)
    | some t => (.ok (t.rows.any (isAt transaction index)), m)
  | .addRow table row, m => m.written (m.addRow table row)
  | .hasReceipt transaction operation, m => (.ok (m.hasReceipt transaction operation), m)
  | .addReceipt receipt events, m => m.written (m.addReceipt receipt events)
  | .account owner, m => (.ok (m.account? owner), m)
  | .addAccount account, m => m.written (m.addAccount account)
  | .asset id, m => (.ok (m.asset? id), m)
  | .addAsset asset, m => (.ok (), m.addAsset asset)
  | .balance owner asset, m => (.ok (m.balance? owner asset), m)
  | .putBalance balance, m => (.ok (), m.putBalance balance)
  | .token id, m => (.ok (m.token? id), m)
  | .addToken token, m => m.written (m.addToken token)
  | .setToken token, m => (.ok (), m.setToken token)
  | .holding contract owner, m => (.ok (m.holding? contract owner), m)
  | .putHolding balance, m => (.ok (), m.putHolding balance)
  | .transfer transaction operation, m => (.ok (m.transfer? transaction operation), m)
  | .addTransfer transfer, m => m.written (m.addTransfer transfer)

/-- A request that fails leaves the store as it was. -/
theorem answer_of_error {request : Request} {m m' : Memory} {e : Error}
    (h : answer request m = (.error e, m')) : m' = m := by
  have go : ∀ (r : Except Error Memory), m.written r = (.error e, m') → m' = m := by
    intro r hr
    cases r with
    | ok => simp [written] at hr
    | error => exact (Prod.mk.inj hr).2.symm
  cases request <;> simp only [answer] at h
  case hasRow =>
    split at h
    · exact (Prod.mk.inj h).2.symm
    · simp at h
  case addBlock | addTransaction | addOperation | addRow | addReceipt | addAccount |
      addToken | addTransfer =>
    exact go _ h
  -- the other requests never fail
  all_goals simp at h

end Memory

end ChainIndex.Store
