import ChainIndex.Chain.Payload

/-!
# Addresses in payloads

Which address an operation belongs to, and which address holds which asset after it. Payloads of
different types use different keys for the same thing, so the keys are tried in a fixed order.
-/

namespace ChainIndex

namespace Payload

/-- The keys under which the primary address of an operation may stand, the first one being tried
first. -/
def mainAddressKeys : List String :=
  ["addr", "from_addr", "caller_addr", "owner_addr", "miner_address", "payer", "fee_paying_account",
    "lock_balance_addr", "pay_back_owner", "bonus_owner", "fee_pay_address", "publisher_addr",
    "addr_from_claim", "issuer_addr"]

/-- The primary address of an operation. The first key that the payload has decides, and a value
that is no text stands for no address. -/
def mainAddress (p : Payload) : String :=
  (((mainAddressKeys.findSome? p.get?).bind Json.text?)).getD ""

/-- The first text under one of some keys; values that are no text are passed over. -/
def firstText? (p : Payload) (keys : List String) : Option String :=
  keys.findSome? p.text?

/-- The asset of the amount that an operation moves. -/
def movedAsset? (p : Payload) : Option String :=
  (p.get? "amount").bind (Json.memberText? "asset_id")

/-- The keys under which the address may stand whose balance an operation changes. -/
def holderKeys : List String :=
  ["addr", "caller_addr", "lock_balance_addr", "foreclose_addr"]

/-- The keys under which the asset of that balance may stand. -/
def heldAssetKeys : List String :=
  ["asset_id", "lock_asset_id", "foreclose_asset_id"]

/-- The address and the asset of the balance that an operation may have changed. -/
def holding? (p : Payload) : Option (String × String) := do
  let holder ← (p.firstText? holderKeys).filter (· ≠ "")
  -- an empty text under the asset's own keys counts as none, and the amount's asset is taken
  let asset ← ((p.firstText? heldAssetKeys).filter (· ≠ "")).or p.movedAsset?
  some (holder, asset)

end Payload

namespace Deposit

/-- The address and the asset of one deposit: a list that starts with the pair of them, or an object
with both. -/
def holding? : Json → Option (String × String)
  | .arr (.arr (address :: asset :: _) :: _) => do
    some (← address.text?, ← asset.text?)
  | .obj members => do
    let address ← (members.lookup "addr").or (members.lookup "address")
    let asset ← members.lookup "asset_id"
    some (← address.text?, ← asset.text?)
  | _ => none

/-- The holdings that a list of deposits changes. Deposits that name none are passed over. -/
def holdings (deposits : List Json) : List (String × String) :=
  (deposits.filterMap holding?).filter fun (address, asset) => address ≠ "" ∧ asset ≠ ""

end Deposit

end ChainIndex
