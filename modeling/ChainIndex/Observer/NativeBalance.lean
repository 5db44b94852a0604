import ChainIndex.Chain.Amount
import ChainIndex.Chain.Holder
import ChainIndex.Observer.Pipeline
import ChainIndex.Scan.Conversion
import ChainIndex.Scan.Procedure

/-!
# Balances of addresses

The balance of an address is not computed from what moved: after an operation that may have
changed it, the node is asked for it and the stored balance is replaced. The asset's precision
comes from the memory, from the store, or from the node's list of assets, which is stored on the
way.
-/

namespace ChainIndex.Observer

open Scan (Procedure store node cache Refresher)

/-- How many assets the node is asked for. -/
def listedAtOnce : Nat := 100

/-- Store the assets of a list that are not stored yet, and remember all of them. Gives the last one
that has the wanted id. -/
def registerAssets (owner : Refresher) (wanted : String) :
    List Asset → Option AssetRecord → Procedure (Option AssetRecord)
  | [], found => pure found
  | asset :: rest, found => do
    let record ← Program.ofExcept asset.record
    if (← store (.asset record.id)).isSome then pure ()
    else store (.addAsset record)
    cache (.keepAsset owner record.id record)
    registerAssets owner wanted rest (if record.id = wanted then some record else found)

/-- The record of an asset, from wherever it is known. -/
def knownAsset (owner : Refresher) (id : String) : Procedure (Option AssetRecord) := do
  match ← cache (.asset owner id) with
  | some asset => pure (some asset)
  | none =>
    match ← store (.asset id) with
    | some asset =>
      cache (.keepAsset owner id asset)
      pure (some asset)
    | none =>
      -- the node cannot be asked for a single asset
      let listed ← node (.assets 0 listedAtOnce)
      registerAssets owner id listed none

/-- The decimal places of a stored precision; a negative one is none. -/
def places (precision : Int) : Option Nat :=
  if 0 ≤ precision then some precision.toNat else none

/-- Replace the stored balance of an address in an asset by the one the node reports. -/
def refreshBalance (owner : Refresher) (address asset : String) : Procedure Unit := do
  let balances ← node (.balances address)
  -- an asset that the address does not hold is not listed
  let raw := (balances.lookup asset).getD 0
  match ← knownAsset owner asset with
  | none => throw (.malformed (.unknownAsset asset))
  | some record =>
    store (.putBalance ⟨address, asset, Amount.scale raw (places record.precision)⟩)

/-! ## Observers -/

/-- A text that a transfer operation must have. -/
def transferPart (part : TransferPart) : Option String → Except Error String
  | some s => .ok s
  | none => .error (.malformed (.transferPart part))

/-- Refresh the balances on both sides of a transfer operation. -/
def refreshTransfer (seen : Observation) : Procedure Unit :=
  if seen.typeName ≠ "transfer_operation" then pure ()
  else do
    let sender ← Program.ofExcept (transferPart .sender (seen.payload.text? "from_addr"))
    let receiver ← Program.ofExcept (transferPart .receiver (seen.payload.text? "to_addr"))
    let asset ← Program.ofExcept (transferPart .asset seen.payload.movedAsset?)
    refreshBalance .transfers sender asset
    if receiver = sender then pure () else refreshBalance .transfers receiver asset

/-- The observer of transfer operations. -/
def transferBalances : Observer Scan.interface := ⟨"TransferBalanceUpdater", refreshTransfer⟩

/-- Refresh the balance that an operation names, if it names one. -/
def refreshNamed (seen : Observation) : Procedure Unit :=
  match seen.payload.holding? with
  | some (address, asset) => refreshBalance .amounts address asset
  | none => pure ()

/-- The observer of operations that name an address and an asset. -/
def amountBalances : Observer Scan.interface := ⟨"AmountBearingBalanceUpdater", refreshNamed⟩

end ChainIndex.Observer
