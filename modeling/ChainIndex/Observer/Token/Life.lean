import ChainIndex.Chain.TokenTransfer
import ChainIndex.Observer.NativeBalance
import ChainIndex.Observer.Token.Birth
import ChainIndex.Time

/-!
# Events of tokens

The events that a token emits while its code runs through keep its record, the balances in it and
the history of its transfers up to date. Balances and supply are asked for again, never computed
from an event. The deposits that the code made to addresses are refreshed at the end.
-/

namespace ChainIndex.Observer

open Scan (Procedure store cache)

/-- Whether a contract has a record as a token. Only tokens are remembered, since a contract can
still become one. -/
def isKnown (contract : String) : Procedure Bool := do
  if ← cache (.token contract) then pure true
  else if (← store (.token contract)).isSome then
    cache (.keepToken contract)
    pure true
  else pure false

/-- A token has been set up: it is in its common state, and is asked about itself once more. -/
def followSetUp (caller contract : String) : Procedure Unit := do
  match ← store (.token contract) with
  | none => pure ()
  | some token =>
    let token ← describeToken caller contract { token with state := some "common" }
    store (.setToken token)

/-- The record of a transfer that an event tells of. -/
def transferRecord (seen : Observation) (event : Event) (transfer : Transfer) (operation : Int) :
    Except Error TransferRecord := do
  let time ← match Timestamp.ofBlockTime seen.block.timestamp with
    | some time => pure time
    | none => .error (.malformed (.blockTime seen.block.timestamp))
  let blockNumber ← Quantity.blockNumber.int64 seen.block.number
  pure {
    operation, time, blockNumber
    contract := event.contract
    sender := transfer.sender
    receiver := transfer.receiver
    amount := Amount.scale transfer.amount none
    transaction := seen.transaction
    eventName := event.name }

/-- Replace the stored balance of an owner in a token by what the token says. -/
def refreshHolding (caller contract owner : String) (precision : Option Nat) :
    Procedure Unit := do
  let raw ← Question.holding caller contract owner
  store (.putHolding ⟨contract, owner, Amount.scale raw precision⟩)

/-- Replace the stored supply of a token by what the token says. -/
def refreshSupply (caller contract : String) : Procedure Unit := do
  let supply ← Question.supply caller contract
  match ← store (.token contract) with
  | none => pure ()
  | some token =>
    store (.setToken { token with totalSupply := some (Amount.scale supply none) })

/-- Refresh the balances of some owners, each on its own. -/
def refreshOwners (caller contract : String) (precision : Option Nat) :
    List String → Procedure Unit
  | [] => pure ()
  | owner :: rest => do
    passOver (refreshHolding caller contract owner precision)
    refreshOwners caller contract precision rest

/-- A token reports a transfer: record it, unless the operation has one on record, and refresh the
balances of its parties, and the supply if it changed. -/
def followTransfer (caller : String) (seen : Observation) (event : Event) : Procedure Unit := do
  let transfer ← Program.ofExcept (Transfer.ofArgument event.argument)
  let operation ← Program.ofExcept (Quantity.operationIndex.int32 seen.index)
  if (← store (.transfer seen.transaction operation)).isSome then pure ()
  else
    let record ← Program.ofExcept (transferRecord seen event transfer operation)
    store (.addTransfer record)
  -- balances are asked for even if the transfer is on record: a run may have stopped before that
  let token ← store (.token event.contract)
  let precision := (token.bind (·.precision)).bind places
  refreshOwners caller event.contract precision transfer.parties
  if transfer.mintsOrBurns then passOver (refreshSupply caller event.contract) else pure ()

/-- What an event of a token leads to. Approvals, like every other event, lead to nothing. -/
def followEvent (caller : String) (seen : Observation) (event : Event) : Procedure Unit :=
  if event.name = "Inited" then followSetUp caller event.contract
  else if event.name = "Transfer" then followTransfer caller seen event
  else pure ()

/-- Go through the events of a receipt, each on its own. -/
def followEvents (caller : String) (seen : Observation) : List Event → Procedure Unit
  | [] => pure ()
  | event :: rest => do
    if ← isKnown event.contract then passOver (followEvent caller seen event) else pure ()
    followEvents caller seen rest

/-- Refresh the balances that deposits have changed, each on its own. -/
def refreshDeposits : List (String × String) → Procedure Unit
  | [] => pure ()
  | (address, asset) :: rest => do
    passOver (refreshBalance .deposits address asset)
    refreshDeposits rest

/-- Follow the events and the deposits of a receipt, if the contract code ran through. -/
def followReceipt (caller : String) (seen : Observation) : Procedure Unit :=
  match seen.completed with
  | none => pure ()
  | some receipt => do
    followEvents caller seen receipt.events
    refreshDeposits (Deposit.holdings receipt.addressDeposits)

/-- The observer of the events of tokens. -/
def tokenEvents (caller : String) : Observer Scan.interface :=
  ⟨"TokenEventProcessor", followReceipt caller⟩

end ChainIndex.Observer
