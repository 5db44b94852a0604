import ChainIndex.Chain.Block
import ChainIndex.Chain.Payload
import ChainIndex.Error

/-!
# Operations

The catalogue of operation types, and the reading of a raw operation, which is a pair of a type
code and a payload. A code without an entry gets a name made from the code itself, so that
different codes always have different names.
-/

namespace ChainIndex

namespace Operation

/-- The named operation types. -/
def catalogue : List (Int × String) := [
  (0, "transfer_operation"),
  (1, "limit_order_create_operation"),
  (2, "limit_order_cancel_operation"),
  (3, "call_order_update_operation"),
  (4, "fill_order_operation"),
  (5, "account_create_operation"),
  (6, "account_update_operation"),
  (7, "account_whitelist_operation"),
  (8, "account_upgrade_operation"),
  (9, "account_transfer_operation"),
  (10, "asset_create_operation"),
  (11, "asset_update_operation"),
  (12, "asset_update_bitasset_operation"),
  (13, "asset_update_feed_producers_operation"),
  (14, "asset_issue_operation"),
  (15, "asset_reserve_operation"),
  (16, "asset_fund_fee_pool_operation"),
  (17, "asset_settle_operation"),
  (18, "asset_global_settle_operation"),
  (19, "asset_publish_feed_operation"),
  (20, "miner_create_operation"),
  (21, "miner_update_operation"),
  (22, "proposal_create_operation"),
  (23, "proposal_update_operation"),
  (24, "proposal_delete_operation"),
  (25, "withdraw_permission_create_operation"),
  (26, "withdraw_permission_update_operation"),
  (27, "withdraw_permission_claim_operation"),
  (28, "withdraw_permission_delete_operation"),
  (29, "committee_member_create_operation"),
  (30, "committee_member_update_operation"),
  (31, "committee_member_update_global_parameters_operation"),
  (32, "vesting_balance_create_operation"),
  (33, "vesting_balance_withdraw_operation"),
  (34, "worker_create_operation"),
  (35, "custom_operation"),
  (36, "assert_operation"),
  (37, "balance_claim_operation"),
  (38, "override_transfer_operation"),
  (39, "transfer_to_blind_operation"),
  (40, "blind_transfer_operation"),
  (41, "transfer_from_blind_operation"),
  (42, "asset_settle_cancel_operation"),
  (43, "asset_claim_fees_operation"),
  (44, "fba_distribute_operation"),
  (76, "contract_register_operation"),
  (77, "native_contract_register_operation"),
  (78, "contract_invoke_operation"),
  (79, "storage_operation"),
  (80, "transfer_contract_operation"),
  (81, "contract_upgrade_operation")]

/-- The name of an operation type. -/
def typeName (code : Int) : String :=
  match catalogue.lookup code with
  | some name => name
  | none => "unknown_operation_" ++ String.ofList (Json.intChars code)

/-- Whether operations of this type run contract code, and so have receipts. -/
def runsContract (code : Int) : Bool :=
  76 ≤ code && code ≤ 81

/-- The type code and the payload of a raw operation. -/
def decode (raw : Json) : Except Error (Int × Payload) :=
  match raw with
  | .arr [first, second] =>
    -- the code is looked at first, so that the fault of a payload can name it
    match first.int64? with
    | none => .error (.malformed (.operationCode first))
    | some code =>
      match second with
      | .obj members => .ok (code, Payload.ofMembers members)
      | _ => .error (.malformed (.payload code))
  | .arr items => .error (.malformed (.pairSize items.length))
  | _ => .error (.malformed (.notPair raw))

end Operation

namespace Transaction

/-- The type code of the first operation, if there is one and it shows a code. -/
def leadingType (tx : Transaction) : Option Int := do
  let first ← tx.operations.head?
  let items ← first.items?
  let code ← items.head?
  code.int64?

/-- Whether a raw operation shows a code of a contract type. Pairs that are malformed in other ways
are left to the reading of the operation. -/
def showsContractCode (raw : Json) : Bool :=
  match raw with
  | .arr (code :: _ :: _) => (code.int64?).any Operation.runsContract
  | _ => false

/-- Whether some operation runs contract code. -/
def callsContract (tx : Transaction) : Bool :=
  tx.operations.any showsContractCode

end Transaction

end ChainIndex
