import ChainIndex.Proofs.Course

/-!
# The index of a chain

What an index of a chain has to hold, written down as a function of the chain: its transactions at
their places, with the ids that count for them, and the records that each of them leads to. Nothing
is checked here and nothing is looked up. Where numbers fit their columns and operations can be
read, which is what `Chain.Fits` says, the conversions of a scanner come to the same records.
-/

namespace ChainIndex

open Scan (Placed Chain placeId locate completeReceipt)

/-! ## Transactions at their places -/

/-- A transaction at its place in a chain, with the id that counts for it. -/
structure Listed where
  number : Nat
  position : Nat
  id : String
  content : Transaction

namespace Scan.Chain

variable (chain : Chain)

/-- The transactions of a block. An empty id is filled in from the ids that the block lists. -/
def listedIn (number : Nat) : List Listed :=
  (chain.block number).transactions.zipIdx.map fun (tx, position) =>
    { number, position
      id := if tx.id = "" then ((chain.block number).transactionIds[position]?).getD "" else tx.id
      content := tx }

/-- The transactions of the first blocks, in chain order. -/
def listed (head : Nat) : List Listed := (List.range' 1 head).flatMap chain.listedIn

end Scan.Chain

/-- The account that an operation creates. -/
def Operation.account? (code : Int) (p : Payload) : Option AccountRecord :=
  if Operation.typeName code ≠ "account_create_operation" then none
  else do
    let name ← p.text? "name"
    let owner ← p.text? "payer"
    some ⟨owner, name⟩

/-- The record of an event in a receipt of a transaction. -/
def Event.listed (transaction : String) (event : Event) : EventRecord where
  transaction := transaction
  blockNumber := event.blockNumber
  operation := event.operation
  caller := event.caller
  contract := event.contract
  argument := event.argument
  name := event.name

namespace Listed

variable (t : Listed)

/-- The operations of a transaction, each of them a code and a payload. -/
def operations : List (Int × Payload) :=
  t.content.operations.filterMap fun raw => (Operation.decode raw).toOption

/-- Whether some operation runs contract code. -/
def callsContract : Bool := t.operations.any fun (code, _) => Operation.runsContract code

/-- The receipts that a transaction needs: none if no operation runs contract code. -/
def needed (receipts : String → List Receipt) : List Receipt :=
  if t.callsContract then receipts t.id else []

/-! ## Records -/

/-- The record of a transaction. The numbers that the node wrote into it do not count. -/
def transactionRecord : TransactionRecord where
  id := t.id
  blockNumber := t.number
  refBlockNumber := t.content.refBlockNumber
  refBlockPrefix := t.content.refBlockPrefix
  expiration := t.content.expiration
  operationCount := t.content.operations.length
  indexInBlock := t.position
  leadingType := (t.operations.head?.map (·.1)).getD (-1)

/-- The record of an operation. -/
def operationRecord (index : Nat) (code : Int) (p : Payload) : OperationRecord where
  id := placeId t.number t.id index
  transaction := t.id
  blockNumber := t.number
  transactionIndex := t.position
  index := index
  typeCode := code
  typeName := Operation.typeName code
  payload := (locate p t.number t.id index).text
  address := (locate p t.number t.id index).mainAddress

/-- The records of all its operations. -/
def operationRecords : List OperationRecord :=
  t.operations.zipIdx.map fun ((code, p), index) => t.operationRecord index code p

/-- The accounts that its operations create. -/
def accountRecords : List AccountRecord :=
  t.operations.filterMap fun (code, p) => Operation.account? code p

/-- The record of a receipt with those of its events. An id or a block that it leaves out is that
of the transaction. -/
def receiptRecords (r : Receipt) : ReceiptRecord × List EventRecord :=
  let transaction := if r.transaction = "" then t.id else r.transaction
  ({ transaction
     blockNumber := (if r.blockNumber = 0 then t.number else r.blockNumber : Nat)
     operation := r.operation
     apiResult := r.apiResult
     succeeded := r.succeeded
     fee := r.fee
     invoker := r.invoker
     registered := r.registered
     events := (Json.arr (r.events.map Event.json)).text
     withdrawals := (Json.arr r.withdrawals).text
     balanceChanges := (Json.arr r.balanceChanges).text
     addressDeposits := (Json.arr r.addressDeposits).text
     contractDeposits := (Json.arr r.contractDeposits).text
     transferFees := (Json.arr r.transferFees).text },
   r.events.map (Event.listed transaction))

end Listed

/-! ## Chains that fit -/

/-- Numbers of a transaction fit their columns, and its operations can be read. -/
structure Listed.Fits (t : Listed) : Prop where
  refBlockNumber : (t.content.refBlockNumber : Int) ≤ int64Max
  refBlockPrefix : (t.content.refBlockPrefix : Int) ≤ int64Max
  operationCount : (t.content.operations.length : Int) ≤ int32Max
  operations : ∀ raw ∈ t.content.operations, ∃ code p, Operation.decode raw = .ok (code, p) ∧
    int32Min ≤ code ∧ code ≤ int32Max

/-- Numbers of an event fit their columns. -/
structure Event.Fits (event : Event) : Prop where
  blockNumber : (event.blockNumber : Int) ≤ int64Max
  operation : (event.operation : Int) ≤ int32Max

/-- So do those of a receipt, with its events. -/
structure Receipt.Fits (r : Receipt) : Prop where
  blockNumber : (r.blockNumber : Int) ≤ int64Max
  operation : (r.operation : Int) ≤ int32Max
  fee : (r.fee : Int) ≤ int64Max
  events : ∀ event ∈ r.events, event.Fits

/-- And those of a chain up to a block. -/
structure Scan.Chain.Fits (chain : Chain) (head : Nat) : Prop where
  number : (head : Int) ≤ int64Max
  fee : ∀ number, 1 ≤ number → number ≤ head → ((chain.block number).fee : Int) ≤ int64Max
  transactionCount : ∀ number, 1 ≤ number → number ≤ head →
    ((chain.block number).transactions.length : Int) ≤ int32Max
  transactions : ∀ t ∈ chain.listed head, t.Fits
  receipts : ∀ t ∈ chain.listed head, ∀ r ∈ t.needed chain.receipts, r.Fits

/-! ## Conversions -/

theorem int64_eq {what : Quantity} {n : Nat} (h : (n : Int) ≤ int64Max) :
    what.int64 n = .ok ↑n := by
  refine if_pos ⟨?_, h⟩
  unfold int64Min
  omega

theorem int32_eq {what : Quantity} {n : Nat} (h : (n : Int) ≤ int32Max) :
    what.int32 n = .ok ↑n := by
  refine if_pos ⟨?_, h⟩
  unfold int32Min
  omega

/-- An operation that can be read is a pair of a code and an object. -/
theorem Operation.pair_of_decode {raw : Json} {code : Int} {p : Payload}
    (h : Operation.decode raw = .ok (code, p)) :
    ∃ first members, raw = .arr [first, .obj members] ∧ first.int64? = some code := by
  unfold Operation.decode at h
  split at h
  · rename_i first second
    cases hcode : first.int64? with
    | none => simp [hcode] at h
    | some shown =>
      cases second with
      | obj members =>
        simp only [hcode, Except.ok.injEq, Prod.mk.injEq] at h
        obtain ⟨rfl, -⟩ := h
        exact ⟨first, members, rfl, hcode⟩
      | _ => simp [hcode] at h
  · cases h
  · cases h

theorem Event.Fits.record {event : Event} (h : event.Fits) (transaction : String) :
    event.record transaction = .ok (event.listed transaction) := by
  unfold Event.record
  rw [int64_eq h.blockNumber, int32_eq h.operation]
  rfl

theorem Event.mapM_record {events : List Event} (h : ∀ event ∈ events, event.Fits)
    (transaction : String) :
    events.mapM (Event.record transaction) = .ok (events.map (Event.listed transaction)) := by
  induction events with
  | nil => rfl
  | cons event rest ih =>
    have hrest := ih fun other hother => h other (by simp [hother])
    rw [List.mapM_cons, (h event (by simp)).record, hrest]
    rfl

namespace Listed

variable {t : Listed}

/-- The transaction as it is asked for. -/
def transaction (t : Listed) : Transaction :=
  { t.content with blockNumber := t.number, indexInBlock := t.position, id := t.id }

/-- An operation of the transaction at its place. -/
def placed (t : Listed) (index : Nat) (code : Int) (p : Payload) : Placed :=
  Placed.ofDecoded t.number t.id t.position index code (locate p t.number t.id index)

theorem Fits.code (h : t.Fits) {code : Int} {p : Payload} (hmem : (code, p) ∈ t.operations) :
    int32Min ≤ code ∧ code ≤ int32Max := by
  obtain ⟨raw, hraw, hdecode⟩ := List.mem_filterMap.1 hmem
  obtain ⟨code', p', hsame, hcode⟩ := h.operations raw hraw
  cases hsame.symm.trans (Entry.ok_of_toOption hdecode)
  exact hcode

/-- The first operation shows its code. -/
theorem Fits.leadingType (h : t.Fits) :
    t.transaction.leadingType = t.operations.head?.map (·.1) := by
  have hsame : t.transaction.leadingType = t.content.leadingType := rfl
  rw [hsame]
  unfold Transaction.leadingType Listed.operations
  cases hraws : t.content.operations with
  | nil => rfl
  | cons raw rest =>
    obtain ⟨code, p, hdecode, -⟩ := h.operations raw (by simp [hraws])
    obtain ⟨first, members, rfl, hfirst⟩ := Operation.pair_of_decode hdecode
    simp [hdecode, hfirst, Except.toOption, Json.items?]

/-- Every operation shows its code. -/
theorem Fits.callsContract (h : t.Fits) : t.transaction.callsContract = t.callsContract := by
  have hshows : ∀ raws ⊆ t.content.operations,
      raws.any Transaction.showsContractCode =
        (raws.filterMap fun raw => (Operation.decode raw).toOption).any
          fun (code, _) => Operation.runsContract code := by
    intro raws hraws
    induction raws with
    | nil => rfl
    | cons raw rest ih =>
      obtain ⟨code, p, hdecode, -⟩ := h.operations raw (hraws (by simp))
      have hrest := ih fun _ hmem => hraws (List.mem_cons_of_mem raw hmem)
      have hcode : Transaction.showsContractCode raw = Operation.runsContract code := by
        obtain ⟨first, members, rfl, hfirst⟩ := Operation.pair_of_decode hdecode
        simp [Transaction.showsContractCode, hfirst]
      simp [hdecode, hcode, hrest, Except.toOption]
  exact hshows t.content.operations (List.Subset.refl _)

theorem Fits.record (h : t.Fits) (hnumber : (t.number : Int) ≤ int64Max)
    (hposition : (t.position : Int) ≤ int32Max) :
    t.transaction.record = .ok t.transactionRecord := by
  -- minus one fits its column, and so does the code of the first operation
  have hleading : Quantity.operationType.int32 (t.transaction.leadingType.getD (-1)) =
      .ok ((t.operations.head?.map (·.1)).getD (-1)) := by
    rw [h.leadingType]
    apply if_pos
    cases hfirst : t.operations.head? with
    | none => decide
    | some first => exact h.code (List.mem_of_head? hfirst)
  have hnumber : Quantity.blockNumber.int64 t.transaction.blockNumber = .ok ↑t.number :=
    int64_eq hnumber
  have hprefix : Quantity.referencePrefix.int64 t.transaction.refBlockPrefix =
      .ok ↑t.content.refBlockPrefix := int64_eq h.refBlockPrefix
  have hreference : Quantity.referenceBlock.int64 t.transaction.refBlockNumber =
      .ok ↑t.content.refBlockNumber := int64_eq h.refBlockNumber
  have hcount : Quantity.operationCount.int32 t.transaction.operations.length =
      .ok ↑t.content.operations.length := int32_eq h.operationCount
  have hposition : Quantity.transactionIndex.int32 t.transaction.indexInBlock =
      .ok ↑t.position := int32_eq hposition
  unfold Transaction.record
  rw [hnumber, hreference, hprefix, hcount, hposition, hleading]
  rfl

theorem placed_record (hnumber : (t.number : Int) ≤ int64Max)
    (hposition : (t.position : Int) ≤ int32Max) {index : Nat} (hindex : (index : Int) ≤ int32Max)
    {code : Int} (hcode : int32Min ≤ code ∧ code ≤ int32Max) (p : Payload) :
    (t.placed index code p).record = .ok (t.operationRecord index code p) := by
  have hnumber : Quantity.blockNumber.int64 (t.placed index code p).blockNumber = .ok ↑t.number :=
    int64_eq hnumber
  have hposition : Quantity.transactionIndex.int32 (t.placed index code p).transactionIndex =
      .ok ↑t.position := int32_eq hposition
  have hindex : Quantity.operationIndex.int32 (t.placed index code p).index = .ok ↑index :=
    int32_eq hindex
  have hcode : Quantity.operationType.int32 (t.placed index code p).typeCode = .ok code :=
    if_pos hcode
  unfold Placed.record
  rw [hnumber, hposition, hindex, hcode]
  rfl

/-- A receipt that is completed with the transaction. -/
theorem receipt_records {r : Receipt} (h : r.Fits) (hnumber : (t.number : Int) ≤ int64Max) :
    (completeReceipt t.transaction r).records = .ok (t.receiptRecords r) := by
  have hblock : Quantity.receiptBlock.int64 (completeReceipt t.transaction r).blockNumber =
      .ok (if r.blockNumber = 0 then t.number else r.blockNumber : Nat) := by
    apply int64_eq
    show ((if r.blockNumber = 0 then t.number else r.blockNumber : Nat) : Int) ≤ int64Max
    split
    · exact hnumber
    · exact h.blockNumber
  have hoperation : Quantity.receiptOperation.int32 (completeReceipt t.transaction r).operation =
      .ok ↑r.operation := int32_eq h.operation
  have hfee : Quantity.receiptFee.int64 (completeReceipt t.transaction r).fee = .ok ↑r.fee :=
    int64_eq h.fee
  have hevents : (completeReceipt t.transaction r).events.mapM
      (Event.record (completeReceipt t.transaction r).transaction) = .ok (r.events.map _) :=
    Event.mapM_record h.events _
  unfold Receipt.records
  rw [hblock, hoperation, hfee, hevents]
  rfl

end Listed

end ChainIndex
