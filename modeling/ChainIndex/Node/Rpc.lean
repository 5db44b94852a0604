import ChainIndex.Error
import ChainIndex.Json.Record
import ChainIndex.Node.Request

/-!
# Questions to a node by remote call

Every request to a node is one remote call, a block is two: the node lists the ids of a block's
transactions apart from the block.
-/

namespace ChainIndex.Node.Rpc

open Json (Reader ofNat ofTexts)

/-- A remote call. -/
structure Call where
  method : String
  params : List Json

/-- The other side of remote calls. -/
def interface : Interface where
  Request := Call
  Reply _ := Except Error Json

/-- A program of remote calls. -/
abbrev Remote (α : Type) := Program interface Error α

/-- The result of a remote call. -/
def call (method : String) (params : List Json) : Remote Json :=
  .ask ((⟨method, params⟩ : Call) : interface.Request) Program.ofExcept

/-- Read a result, which is a fault of the data if it is not as expected. -/
def decode {α : Type} (reader : Reader α) (fault : Malformed) (v : Json) : Remote α :=
  match reader v.document with
  | some a => .done a
  | none => .fail (.malformed fault)

/-- The result of a remote call, read. -/
def callFor {α : Type} (reader : Reader α) (method : String) (params : List Json) : Remote α := do
  decode reader (.reply method) (← call method params)

/-- A block by its number, which counts even if the block says otherwise. -/
def block (number : Nat) : Remote (Option Block) := do
  match ← call "get_block" [ofNat number] with
  | .null => pure none
  | v =>
    let block ← decode Block.read (.blockReply number) v
    -- the block itself carries its transactions without their ids
    let infos ← callFor (.list TransactionInfo.read) "fetch_block_transactions" [ofNat number]
    pure (some (({ block with number := number } : Block).withInfos infos))

/-- The receipts of a transaction; a node that knows of none may say so by `null`. -/
def receipts (transaction : String) : Remote (List Receipt) := do
  match ← call "get_contract_invoke_object" [.str transaction] with
  | .null => pure []
  | v => decode (.list Receipt.read) (.receiptsReply transaction) v

/-- The result of a contract's method: a text, or the text of any other value. -/
def invoke (caller contract method argument : String) : Remote String := do
  match ← call "invoke_contract_offline" ([caller, contract, method, argument].map .str) with
  | .str s => pure s
  | v => pure v.text

/-- The balances of an address. -/
def balances (address : String) : Remote Balances := do
  let entries ← callFor (.list BalanceEntry.read) "get_addr_balances" [.str address]
  Program.ofExcept (Balances.ofEntries entries)

/-- Answer a request to a node by remote calls. -/
def answer : (request : Node.Request) → Remote request.Result
  | .block number => block number
  | .receipts transaction => receipts transaction
  | .invoke caller contract method argument => invoke caller contract method argument
  | .assets offset limit => callFor (.list Asset.read) "list_assets" [ofNat offset, ofNat limit]
  | .balances address => balances address

end ChainIndex.Node.Rpc
