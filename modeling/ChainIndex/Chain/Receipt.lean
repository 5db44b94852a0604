import ChainIndex.Json.Record
import ChainIndex.Json.Text

/-!
# Contract receipts

The outcome of an operation that runs contract code, with the events it emitted. The wire has
spellings of its own for some fields, and `null` for an empty text in others.
-/

namespace ChainIndex

open Json (Document Reader fields? ofNat)

/-- An event that a contract emitted during one operation. -/
structure Event where
  blockNumber : Nat := 0
  caller : String := ""
  contract : String := ""
  argument : String := ""
  name : String := ""
  operation : Nat := 0
  transaction : String := ""
deriving Repr, Inhabited, DecidableEq

namespace Event

/-- The names of an event's fields, in the order of the wire. -/
def fieldNames : List String :=
  ["block_num", "caller_addr", "contract_address", "event_arg", "event_name", "op_num", "trx_id"]

/-- Read an event; a field that is left out is empty or zero. -/
def read : Reader Event := fun d => do
  let fields ← fields? fieldNames d
  some {
    blockNumber := ← fields.get "block_num" .word 0
    caller := ← fields.get "caller_addr" (.orDefault "" .text) ""
    contract := ← fields.get "contract_address" .text ""
    argument := ← fields.get "event_arg" (.orDefault "" .text) ""
    name := ← fields.get "event_name" .text ""
    operation := ← fields.get "op_num" .word 0
    transaction := ← fields.get "trx_id" .text "" }

/-- The fields of an event as they are written. -/
def json (event : Event) : Json :=
  .obj [
    ("block_num", ofNat event.blockNumber),
    ("caller_addr", .str event.caller),
    ("contract_address", .str event.contract),
    ("event_arg", .str event.argument),
    ("event_name", .str event.name),
    ("op_num", ofNat event.operation),
    ("trx_id", .str event.transaction)]

end Event

/-- The outcome of one contract operation. -/
structure Receipt where
  id : String := ""
  transaction : String := ""
  blockNumber : Nat := 0
  operation : Nat := 0
  apiResult : String := ""
  events : List Event := []
  succeeded : Bool := false
  fee : Nat := 0
  invoker : String := ""
  registered : String := ""
  withdrawals : List Json := []
  balanceChanges : List Json := []
  addressDeposits : List Json := []
  contractDeposits : List Json := []
  transferFees : List Json := []
deriving Repr, Inhabited

namespace Receipt

/-- The names of a receipt's fields, in the order of the wire. -/
def fieldNames : List String :=
  ["id", "trx_id", "block_num", "op_num", "api_result", "events", "exec_succeed", "acctual_fee",
    "invoker", "contract_registed", "contract_withdraw", "contract_balances", "deposit_to_address",
    "deposit_contract", "transfer_fees"]

/-- Read a receipt; a field that is left out is empty, zero or false. -/
def read : Reader Receipt := fun d => do
  let fields ← fields? fieldNames d
  some {
    id := ← fields.get "id" (.orDefault "" .text) ""
    transaction := ← fields.get "trx_id" .text ""
    blockNumber := ← fields.get "block_num" .word 0
    operation := ← fields.get "op_num" .word 0
    apiResult := ← fields.get "api_result" (.orDefault "" .text) ""
    events := ← fields.get "events" (.list Event.read) []
    succeeded := ← fields.get "exec_succeed" .flag false
    fee := ← fields.get "acctual_fee" .word 0
    invoker := ← fields.get "invoker" (.orDefault "" .text) ""
    registered := ← fields.get "contract_registed" (.orDefault "" .text) ""
    withdrawals := ← fields.get "contract_withdraw" (.list .value) []
    balanceChanges := ← fields.get "contract_balances" (.list .value) []
    addressDeposits := ← fields.get "deposit_to_address" (.list .value) []
    contractDeposits := ← fields.get "deposit_contract" (.list .value) []
    transferFees := ← fields.get "transfer_fees" (.list .value) [] }

/-- The fields of a receipt as they are written. -/
def json (receipt : Receipt) : Json :=
  .obj [
    ("id", .str receipt.id),
    ("trx_id", .str receipt.transaction),
    ("block_num", ofNat receipt.blockNumber),
    ("op_num", ofNat receipt.operation),
    ("api_result", .str receipt.apiResult),
    ("events", .arr (receipt.events.map Event.json)),
    ("exec_succeed", .bool receipt.succeeded),
    ("acctual_fee", ofNat receipt.fee),
    ("invoker", .str receipt.invoker),
    ("contract_registed", .str receipt.registered),
    ("contract_withdraw", .arr receipt.withdrawals),
    ("contract_balances", .arr receipt.balanceChanges),
    ("deposit_to_address", .arr receipt.addressDeposits),
    ("deposit_contract", .arr receipt.contractDeposits),
    ("transfer_fees", .arr receipt.transferFees)]

end Receipt

end ChainIndex
