import ChainIndex.Proofs.EntryOrder
import Mathlib.Data.List.Basic

/-!
# The records of tokens

What is on record for tokens, apart from what they say of themselves, follows from the operations
that have been observed: which of them register a token, and whose receipts tell that a token has
been set up. A token is recorded by the first operation that registers its contract, and is in its
common state from the first receipt on that says so.
-/

namespace ChainIndex

open Scan (Chain asked completeReceipt)
open Store (Memory)

/-! ## What operations tell of tokens -/

namespace Observation

/-- An operation registers a token: its code ran through, and the contract declares everything that
a token must have. -/
def Registers (seen : Observation) (r : Registration) : Prop :=
  seen.typeName = "contract_register_operation" ∧
    (∃ receipt, seen.receipt = some receipt ∧ receipt.succeeded) ∧
    Registration.ofPayload seen.payload = .ok r ∧
    ["transfer", "transferFrom", "approve"] ⊆ r.methods ∧
    ["balanceOf", "totalSupply", "precision", "approvedBalanceFrom"] ⊆ r.queries

/-- An operation registers the contract as a token. -/
def RegistersToken (seen : Observation) (contract : String) : Prop :=
  ∃ r, seen.Registers r ∧ r.contract = contract

/-- Whether the code of an operation ran through and told that the contract has been set up. -/
def setsUp (seen : Observation) (contract : String) : Bool :=
  match seen.completed with
  | none => false
  | some receipt =>
    receipt.events.any fun told => told.name == "Inited" && told.contract == contract

theorem completed_isSome {seen : Observation} :
    seen.completed.isSome ↔ ∃ receipt, seen.receipt = some receipt ∧ receipt.succeeded := by
  unfold completed
  rw [Option.isSome_iff_exists]
  simp only [Option.filter_eq_some_iff]

end Observation

theorem Registration.declaresToken_iff {r : Registration} :
    r.declaresToken ↔ ["transfer", "transferFrom", "approve"] ⊆ r.methods ∧
      ["balanceOf", "totalSupply", "precision", "approvedBalanceFrom"] ⊆ r.queries := by
  simp [declaresToken, tokenMethods, tokenReads]

namespace TokenRecord

/-- The record that an operation makes of a token which it registers. -/
def born (seen : Observation) (r : Registration) : TokenRecord where
  id := r.contract
  blockNumber := seen.block.number
  blockTime := seen.block.timestamp
  transaction := seen.transaction
  contractType := "common"
  ownerKey := r.ownerKey
  owner := r.owner
  registerTime := r.registerTime
  inheritFrom := r.inheritFrom
  gasPrice := r.gasPrice
  gasLimit := r.gasLimit
  state := none
  totalSupply := none
  precision := none
  symbol := none
  name := none
  logo := none
  url := none
  description := none

/-- The record as the registration has made it. -/
def origin (token : TokenRecord) : TokenRecord := { token.registered with state := none }

/-- The record with the common state, if its contract is one of those that have been set up. -/
def settled (setUp : String → Bool) (token : TokenRecord) : TokenRecord :=
  if setUp token.id then { token with state := some "common" } else token

@[simp] theorem settled_id (setUp : String → Bool) (token : TokenRecord) :
    (token.settled setUp).id = token.id := by
  unfold settled
  split <;> rfl

@[simp] theorem map_settled_id (setUp : String → Bool) (tokens : List TokenRecord) :
    (tokens.map (·.settled setUp)).map (·.id) = tokens.map (·.id) := by
  simp

@[simp] theorem settled_origin (setUp : String → Bool) (token : TokenRecord) :
    (token.settled setUp).origin = token.origin := by
  unfold settled
  split <;> rfl

theorem settled_state (setUp : String → Bool) (token : TokenRecord) :
    (token.settled setUp).state = if setUp token.id then some "common" else token.state := by
  unfold settled
  split <;> rfl

theorem settled_settled (setUp setUp' : String → Bool) (token : TokenRecord) :
    (token.settled setUp).settled setUp' = token.settled fun id => setUp id || setUp' id := by
  unfold settled
  cases hsetUp : setUp token.id <;> cases hsetUp' : setUp' token.id <;> simp [hsetUp, hsetUp']

end TokenRecord

theorem newToken_eq {seen : Observation} (h : (seen.block.number : Int) ≤ int64Max)
    (r : Registration) : Observer.newToken seen r = .ok (.born seen r) := by
  unfold Observer.newToken
  have hnumber : Quantity.blockNumber.int64 seen.block.number = .ok ↑seen.block.number := by
    refine if_pos ⟨?_, h⟩
    unfold int64Min
    omega
  rw [hnumber]
  rfl

/-! ## What entries make of the records -/

namespace Entry

/-- What an entry makes of the records of tokens. -/
def onTokens (tokens : List TokenRecord) : Entry → List TokenRecord
  | .token seen r =>
    if tokens.any (·.id == r.contract) then tokens
    else tokens ++ (Observer.newToken seen r).toOption.toList
  | .event _ told => tokens.map (·.settled fun id => told.name == "Inited" && told.contract == id)
  | _ => tokens

section

variable {m m' : Memory} {entry : Entry}

/-- Where none of the contracts has been set up, the records are left as they are. -/
theorem map_settled_false {tokens : List TokenRecord} {setUp : String → Bool}
    (h : ∀ token ∈ tokens, setUp token.id = false) :
    tokens.map (·.settled setUp) = tokens := by
  refine (List.map_congr_left fun token htoken => ?_).trans (List.map_id tokens)
  simp [TokenRecord.settled, h token htoken]

end

/-- The entries of tokens that an operation leads to. -/
def ofTokens (seen : Observation) : List Entry := ofRegistration seen ++ ofEvents seen

theorem ofRegistration_of_registers {seen : Observation} {r : Registration}
    (h : seen.Registers r) : ofRegistration seen = [.token seen r] := by
  obtain ⟨htype, hreceipt, hr, hdeclares⟩ := h
  unfold ofRegistration
  rw [if_pos ⟨htype, Observation.completed_isSome.2 hreceipt⟩, hr]
  exact if_pos (Registration.declaresToken_iff.2 hdeclares)

theorem ofRegistration_of_not {seen : Observation} (h : ∀ r, ¬seen.Registers r) :
    ofRegistration seen = [] := by
  unfold ofRegistration
  split
  · rename_i hran
    cases hr : Registration.ofPayload seen.payload with
    | error e => rfl
    | ok r =>
      refine if_neg fun hdeclares => h r ⟨hran.1, Observation.completed_isSome.1 hran.2, hr, ?_⟩
      exact Registration.declaresToken_iff.1 hdeclares
  · rfl

/-- The events of an operation set tokens up. -/
theorem foldl_ofEvents (seen : Observation) (tokens : List TokenRecord) :
    (ofEvents seen).foldl onTokens tokens = tokens.map (·.settled seen.setsUp) := by
  have hevents : ∀ (events : List Event) (tokens : List TokenRecord),
      (events.map (Entry.event seen)).foldl onTokens tokens =
        tokens.map (·.settled fun id =>
          events.any fun told => told.name == "Inited" && told.contract == id) := by
    intro events
    induction events with
    | nil => exact fun tokens => (map_settled_false fun _ _ => rfl).symm
    | cons told rest ih =>
      intro tokens
      rw [List.map_cons, List.foldl_cons, ih, onTokens, List.map_map]
      refine List.map_congr_left fun token _ => ?_
      rw [Function.comp_apply, TokenRecord.settled_settled]
      rfl
  unfold ofEvents Observation.setsUp
  cases seen.completed with
  | none => exact (map_settled_false fun _ _ => rfl).symm
  | some receipt => exact hevents receipt.events tokens

end Entry

/-! ## What operations make of the records -/

/-- The first operation that registers the contract of a token has made its record, and the token is
in its common state if that operation or a later one has told that it has been set up. -/
def TokenLife (seen : List Observation) (token : TokenRecord) : Prop :=
  ∃ earlier op later r, seen = earlier ++ op :: later ∧
    (∀ op' ∈ earlier, ¬op'.RegistersToken token.id) ∧ op.Registers r ∧ r.contract = token.id ∧
    token.origin = .born op r ∧
    token.state = if (op :: later).any (·.setsUp token.id) then some "common" else none

namespace TokenLife

variable {seen : List Observation} {op : Observation}

/-- The next operation tells of a token that has been recorded before. -/
theorem settle {token : TokenRecord} (h : TokenLife seen token) (op : Observation) :
    TokenLife (seen ++ [op]) (token.settled op.setsUp) := by
  obtain ⟨earlier, first, later, r, rfl, hearlier, hregisters, hcontract, horigin, hstate⟩ := h
  refine ⟨earlier, first, later ++ [op], r, by simp, ?_, hregisters, ?_, ?_, ?_⟩
  · rwa [TokenRecord.settled_id]
  · rw [hcontract, TokenRecord.settled_id]
  · rw [TokenRecord.settled_origin, horigin]
  · rw [TokenRecord.settled_state, TokenRecord.settled_id, hstate, ← List.cons_append,
      List.any_append]
    cases hsetsUp : op.setsUp token.id <;> simp [hsetsUp]

/-- The next operation records a token. -/
theorem record {r : Registration} (hregisters : op.Registers r)
    (hnew : ∀ op' ∈ seen, ¬op'.RegistersToken r.contract) :
    TokenLife (seen ++ [op]) ((TokenRecord.born op r).settled op.setsUp) := by
  refine ⟨seen, op, [], r, rfl, ?_, hregisters, ?_, ?_, ?_⟩
  · rwa [TokenRecord.settled_id]
  · rw [TokenRecord.settled_id]
    rfl
  · rw [TokenRecord.settled_origin]
    rfl
  · rw [TokenRecord.settled_state, TokenRecord.settled_id, List.any_cons, List.any_nil,
      Bool.or_false]
    rfl

end TokenLife

/-- What is on record for tokens after some operations. -/
structure TokenRecords (seen : List Observation) (tokens : List TokenRecord) : Prop where
  unique : (tokens.map (·.id)).Nodup
  complete : ∀ op ∈ seen, ∀ contract, op.RegistersToken contract → contract ∈ tokens.map (·.id)
  life : ∀ token ∈ tokens, TokenLife seen token

namespace TokenRecords

variable {seen : List Observation} {tokens : List TokenRecord} {op : Observation}

theorem empty : TokenRecords [] [] where
  unique := List.nodup_nil
  complete _ h := by cases h
  life _ h := by cases h

/-- An operation that records no token. -/
theorem settle (h : TokenRecords seen tokens)
    (hknown : ∀ r, op.Registers r → r.contract ∈ tokens.map (·.id)) :
    TokenRecords (seen ++ [op]) (tokens.map (·.settled op.setsUp)) where
  unique := by
    rw [TokenRecord.map_settled_id]
    exact h.unique
  complete op' hop' contract hregisters := by
    rw [TokenRecord.map_settled_id]
    rcases List.mem_append.1 hop' with hop' | hop'
    · exact h.complete op' hop' contract hregisters
    · rw [List.mem_singleton.1 hop'] at hregisters
      obtain ⟨r, hr, rfl⟩ := hregisters
      exact hknown r hr
  life token' htoken' := by
    obtain ⟨token, htoken, rfl⟩ := List.mem_map.1 htoken'
    exact (h.life token htoken).settle op

/-- An operation that records a token. -/
theorem record (h : TokenRecords seen tokens) {r : Registration} (hregisters : op.Registers r)
    (hfree : r.contract ∉ tokens.map (·.id)) :
    TokenRecords (seen ++ [op])
      ((tokens ++ [TokenRecord.born op r]).map (·.settled op.setsUp)) where
  unique := by
    rw [TokenRecord.map_settled_id]
    exact Store.Memory.nodup_concat h.unique fun token htoken hid =>
      hfree (List.mem_map.2 ⟨token, htoken, hid⟩)
  complete op' hop' contract hregisters' := by
    rw [TokenRecord.map_settled_id, List.map_append]
    rcases List.mem_append.1 hop' with hop' | hop'
    · exact List.mem_append_left _ (h.complete op' hop' contract hregisters')
    · rw [List.mem_singleton.1 hop'] at hregisters'
      obtain ⟨r', hr', rfl⟩ := hregisters'
      -- an operation registers one contract at most
      cases hregisters.2.2.1.symm.trans hr'.2.2.1
      simp [TokenRecord.born]
  life token' htoken' := by
    obtain ⟨token, htoken, rfl⟩ := List.mem_map.1 htoken'
    rcases List.mem_append.1 htoken with htoken | htoken
    · exact (h.life token htoken).settle op
    · rw [List.mem_singleton.1 htoken]
      exact .record hregisters fun op' hop' hbefore => hfree (h.complete op' hop' _ hbefore)

/-- The entries of tokens of an operation keep the records to what has been observed. -/
theorem observe (h : TokenRecords seen tokens) (hnumber : (op.block.number : Int) ≤ int64Max) :
    TokenRecords (seen ++ [op]) ((Entry.ofTokens op).foldl Entry.onTokens tokens) := by
  unfold Entry.ofTokens
  rw [List.foldl_append, Entry.foldl_ofEvents]
  by_cases hregisters : ∃ r, op.Registers r
  · obtain ⟨r, hr⟩ := hregisters
    rw [Entry.ofRegistration_of_registers hr]
    simp only [List.foldl_cons, List.foldl_nil, Entry.onTokens, newToken_eq hnumber,
      Except.toOption, Option.toList_some]
    by_cases hknown : r.contract ∈ tokens.map (·.id)
    · have hany : tokens.any (·.id == r.contract) := by
        obtain ⟨token, htoken, hid⟩ := List.mem_map.1 hknown
        exact List.any_eq_true.2 ⟨token, htoken, beq_iff_eq.2 hid⟩
      rw [if_pos hany]
      refine h.settle fun r' hr' => ?_
      cases hr.2.2.1.symm.trans hr'.2.2.1
      exact hknown
    · have hnone : ¬tokens.any (·.id == r.contract) := by
        intro hany
        obtain ⟨token, htoken, hid⟩ := List.any_eq_true.1 hany
        exact hknown (List.mem_map.2 ⟨token, htoken, beq_iff_eq.1 hid⟩)
      rw [if_neg hnone]
      exact h.record hr hknown
  · have hnone : ∀ r, ¬op.Registers r := fun r hr => hregisters ⟨r, hr⟩
    rw [Entry.ofRegistration_of_not hnone]
    exact h.settle fun r hr => absurd hr (hnone r)

/-- So do those of some operations. -/
theorem observeAll (h : TokenRecords seen tokens) {ops : List Observation}
    (hnumber : ∀ op ∈ ops, (op.block.number : Int) ≤ int64Max) :
    TokenRecords (seen ++ ops) ((ops.flatMap Entry.ofTokens).foldl Entry.onTokens tokens) := by
  induction ops generalizing seen tokens with
  | nil => simpa using h
  | cons op rest ih =>
    rw [List.flatMap_cons, List.foldl_append]
    have hall := ih (h.observe (hnumber op (by simp))) fun op' hop' => hnumber op' (by simp [hop'])
    rwa [List.append_assoc, List.singleton_append] at hall

end TokenRecords

/-! ## The operations of a chain -/

namespace Scan.Chain

variable (chain : Chain)

/-- The receipts of a transaction: none if no operation runs contract code. -/
def received (tx : Transaction) : List Receipt :=
  if tx.callsContract then (chain.receipts tx.id).map (completeReceipt tx) else []

/-- The operations of a transaction as they are observed. -/
def observed (block : Block) (tx : Transaction) : List Observation :=
  tx.operations.zipIdx.filterMap fun (raw, index) =>
    (Operation.decode raw).toOption.map fun (code, p) =>
      Entry.seenAt block tx (chain.received tx) index code p

/-- The operations of a block as they are observed. -/
def observedIn (number : Nat) : List Observation :=
  (asked (chain.block number) number).transactions.flatMap
    (chain.observed (asked (chain.block number) number))

/-- The operations of the blocks from one number on and before another. -/
def seen (first next : Nat) : List Observation :=
  (List.range' first (next - first)).flatMap chain.observedIn

end Scan.Chain

namespace Entry

section

variable {block : Block} {tx : Transaction} {received : List Receipt}

end

end Entry

end ChainIndex
