import ChainIndex.Chain.Registration
import ChainIndex.Observer.Pipeline
import ChainIndex.Observer.Token.Question
import ChainIndex.Scan.Conversion

/-!
# Token contracts

A contract that declares the methods of a token when it is registered gets a record, filled with
what the contract says about itself. What it does not say stays open until one of its events
tells.
-/

namespace ChainIndex.Observer

open Scan (Procedure store)

/-- A precision in a column of 32 bits, if it fits. -/
def precisionColumn (precision : Nat) : Option Int :=
  if (precision : Int) ≤ int32Max then some precision else none

/-- The record with what a contract says about itself now. A question that fails leaves the record's
fields as they are. -/
def describeToken (caller contract : String) (token : TokenRecord) : Procedure TokenRecord := do
  let token ← match ← (Question.description caller contract).attempt with
    | .ok info =>
      pure { token with
        name := some info.name
        symbol := some info.symbol
        precision := precisionColumn info.precision }
    | .error _ => pure token
  match ← (Question.supply caller contract).attempt with
  | .ok supply => pure { token with totalSupply := some (Amount.scale supply none) }
  | .error _ => pure token

/-- The record of a token that has just been registered. -/
def newToken (seen : Observation) (r : Registration) : Except Error TokenRecord := do
  let blockNumber ← Quantity.blockNumber.int64 seen.block.number
  pure {
    blockNumber
    id := r.contract
    blockTime := seen.block.timestamp
    transaction := seen.transaction
    contractType := "common"
    ownerKey := r.ownerKey
    owner := r.owner
    registerTime := r.registerTime
    inheritFrom := r.inheritFrom
    gasPrice := r.gasPrice
    gasLimit := r.gasLimit
    state := none
    totalSupply := none
    precision := none
    symbol := none
    name := none
    logo := none
    url := none
    description := none }

/-- Record a token, unless its contract has a record. -/
def recordToken (caller : String) (seen : Observation) (r : Registration) : Procedure Unit := do
  if (← store (.token r.contract)).isSome then pure ()
  else
    let token ← Program.ofExcept (newToken seen r)
    let token ← describeToken caller token.id token
    store (.addToken token)

/-- Record the token of an operation that registers one, if the registration ran through. -/
def recordRegistration (caller : String) (seen : Observation) : Procedure Unit :=
  if seen.typeName = "contract_register_operation" ∧ seen.completed.isSome then do
    let r ← Program.ofExcept (Registration.ofPayload seen.payload)
    if r.declaresToken then recordToken caller seen r else pure ()
  else pure ()

/-- The observer of token contracts. -/
def tokens (caller : String) : Observer Scan.interface :=
  ⟨"TokenContractClassifier", recordRegistration caller⟩

end ChainIndex.Observer
