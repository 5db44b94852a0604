import ChainIndex.Chain.Payload
import ChainIndex.Error
import ChainIndex.Text.Blank
import ChainIndex.Text.Integer

/-!
# Contract registrations

The fields of an operation that registers a contract, and the test whether the contract declares the
methods of a token.
-/

namespace ChainIndex

/-- A contract as its registration describes it. -/
structure Registration where
  contract : String
  /-- The methods that can be called. -/
  methods : List String
  /-- The methods that only read. -/
  queries : List String
  ownerKey : String
  owner : String
  registerTime : String
  inheritFrom : String
  gasPrice : Int
  gasLimit : Int
deriving DecidableEq, Repr

namespace Registration

/-- The refusal of a registration for one of its fields. -/
def refused {α : Type} (field : String) (fault : RegistrationFault) : Except Error α :=
  .error (.malformed (.registration field fault))

/-- A text that the registration must have. -/
def textField (p : Payload) (field : String) : Except Error String :=
  match p.text? field with
  | some s => .ok s
  | none => refused field .missing

/-- The integer that a value of a registration stands for: a number or a text that writes one. -/
def integer? : Json → Option Int
  | .int n => (Json.int n).int64?
  | .str s => Text.readBounded int64Min int64Max (Text.trim s)
  | _ => none

/-- An integer that the registration must have. -/
def integerField (p : Payload) (field : String) : Except Error Int :=
  match p.get? field with
  | none => refused field .missing
  | some v =>
    match integer? v with
    | some n => .ok n
    | none => refused field .notInteger

/-- A list of names that the code of a contract must have. -/
def namesField (code : Json) (field : String) : Except Error (List String) :=
  match (code.member? field).bind Json.items? with
  | none => refused field .missing
  | some items =>
    match items.mapM Json.text? with
    | some names => .ok names
    | none => refused field .notTexts

/-- Read a registration. The first field that is missing or malformed, in the order below, is
reported. -/
def ofPayload (p : Payload) : Except Error Registration := do
  let code ← match p.get? "contract_code" with
    | some (.obj members) => pure (Json.obj members)
    | _ => refused "contract_code" .missing
  let methods ← namesField code "abi"
  let queries ← namesField code "offline_abi"
  let ownerKey ← textField p "owner_pubkey"
  let registerTime ← textField p "register_time"
  let owner ← textField p "owner_addr"
  let inheritFrom ← textField p "inherit_from"
  let gasPrice ← integerField p "gas_price"
  let gasLimit ← integerField p "init_cost"
  let contract ← textField p "contract_id"
  pure {
    contract, methods, queries, ownerKey, owner, registerTime, inheritFrom, gasPrice, gasLimit }

/-- The methods that a token must have. -/
def tokenMethods : List String := ["transfer", "transferFrom", "approve"]

/-- The reading methods that a token must have. -/
def tokenReads : List String := ["balanceOf", "totalSupply", "precision", "approvedBalanceFrom"]

/-- Whether the contract declares everything that a token must have. -/
def declaresToken (r : Registration) : Bool :=
  tokenMethods.all r.methods.contains && tokenReads.all r.queries.contains

end Registration

end ChainIndex
