import ChainIndex.Proofs.Contents
import ChainIndex.Proofs.EntryOrder
import ChainIndex.Proofs.Listing
import Mathlib.Data.List.Basic

/-!
# The entries of a chain that fits

Where the numbers of a chain fit their columns and its operations can be read, no entry of the chain
is refused, and all of them can be made on an empty store. The sections of the store then have the
records that the index of the chain asks for.
-/

namespace ChainIndex

open Scan (Chain asked locate completeReceipt)

/-! ## Places of listed transactions -/

namespace Scan.Chain

variable {chain : Chain} {head : Nat} {t : Listed}

/-- The transactions of a block as they are asked for are the listed ones. -/
theorem transactions_asked (chain : Chain) (number : Nat) :
    (asked (chain.block number) number).transactions =
      (chain.listedIn number).map Listed.transaction := by
  show List.mapIdx _ _ = _
  rw [List.mapIdx_eq_zipIdx_map, listedIn, List.map_map]
  apply List.map_congr_left
  rintro ⟨tx, position⟩ -
  by_cases hid : tx.id = ""
  · simp [Block.place, Listed.transaction, hid]
  · simp [Block.place, Listed.transaction, hid]

theorem of_mem_listedIn {number : Nat} (h : t ∈ chain.listedIn number) :
    t.number = number ∧ t.position < (chain.block number).transactions.length := by
  obtain ⟨⟨tx, position⟩, hmem, rfl⟩ := List.mem_map.1 h
  obtain ⟨-, hlt, -⟩ := List.mem_zipIdx hmem
  exact ⟨rfl, by simpa using hlt⟩

theorem mem_listed : t ∈ chain.listed head ↔
    ∃ number, 1 ≤ number ∧ number ≤ head ∧ t ∈ chain.listedIn number := by
  unfold listed
  simp only [List.mem_flatMap, List.mem_range'_1]
  constructor
  · rintro ⟨number, ⟨hpos, hlt⟩, hmem⟩
    exact ⟨number, hpos, by omega, hmem⟩
  · rintro ⟨number, hpos, hle, hmem⟩
    exact ⟨number, ⟨hpos, by omega⟩, hmem⟩

/-- The place of a listed transaction fits its columns. -/
theorem Fits.place (h : chain.Fits head) (ht : t ∈ chain.listed head) :
    (t.number : Int) ≤ int64Max ∧ (t.position : Int) ≤ int32Max := by
  obtain ⟨number, hpos, hle, hmem⟩ := mem_listed.1 ht
  obtain ⟨rfl, hlt⟩ := of_mem_listedIn hmem
  have hhead := h.number
  have hcount := h.transactionCount t.number hpos hle
  omega

end Scan.Chain

/-! ## The entries of a listed transaction -/

/-- What the place of an operation adds to its payload is neither a name nor a payer. -/
theorem text?_locate (p : Payload) (number : Nat) (transaction : String) (index : Nat)
    {key : String}
    (hkey : key ∉ ["block_num", "txid", "index_in_tx", "memo", "guarantee_id"]) :
    (locate p number transaction index).text? key = p.text? key := by
  simp only [List.mem_cons, List.not_mem_nil, or_false, not_or] at hkey
  obtain ⟨hnumber, htransaction, hindex, hmemo, hguarantee⟩ := hkey
  unfold Payload.text? locate
  rw [Payload.get?_putNew_of_ne _ _ hguarantee, Payload.get?_putNew_of_ne _ _ hmemo,
    Payload.get?_put_of_ne _ _ hindex, Payload.get?_put_of_ne _ _ htransaction,
    Payload.get?_put_of_ne _ _ hnumber]

namespace Listed

variable {t : Listed} {b : Block}

/-- The entries of an operation. -/
def operationEntries (t : Listed) (index : Nat) (code : Int) (p : Payload) : List Entry :=
  .table (t.placed index code p).typeName (t.placed index code p).payload ::
    .row (t.placed index code p) :: .operation (t.placed index code p) ::
      (Operation.account? code p).toList.map .account

/-- The entries of a transaction. -/
def entries (receipts : String → List Receipt) (t : Listed) : List Entry :=
  .transaction t.transaction ::
    (t.operations.zipIdx.flatMap (fun ((code, p), index) => t.operationEntries index code p) ++
      (t.needed receipts).map fun r => .receipt (completeReceipt t.transaction r))

theorem ofAccountCreation_eq (b : Block) (index : Nat) (code : Int) (p : Payload) :
    Entry.ofAccountCreation (Entry.seenAt b t.transaction [] index code p) =
      (Operation.account? code p).toList.map .account := by
  have hname : (Entry.seenAt b t.transaction [] index code p).payload.text? "name" =
      p.text? "name" := text?_locate p b.number t.id index (by decide)
  have hpayer : (Entry.seenAt b t.transaction [] index code p).payload.text? "payer" =
      p.text? "payer" := text?_locate p b.number t.id index (by decide)
  have htype : (Entry.seenAt b t.transaction [] index code p).typeName =
      Operation.typeName code := rfl
  unfold Entry.ofAccountCreation Operation.account?
  rw [hname, hpayer, htype]
  by_cases hcreates : Operation.typeName code ≠ "account_create_operation"
  · rw [if_pos hcreates, if_pos hcreates]
    rfl
  · rw [if_neg hcreates, if_neg hcreates]
    cases p.text? "name" with
    | none => rfl
    | some name => cases p.text? "payer" <;> rfl

/-- Operations that can be read lead to their entries, one after the other. -/
theorem ofOperations_eq (h : t.Fits) (hnumber : b.number = t.number) (received : List Receipt)
    {index : Nat} {raws : List Json} (hraws : raws ⊆ t.content.operations)
    (hindex : ((index + raws.length : Nat) : Int) ≤ int32Max + 1) :
    (Entry.ofOperations b t.transaction received index raws).filter Entry.isIndexed =
      ((raws.filterMap fun raw => (Operation.decode raw).toOption).zipIdx index).flatMap
        fun ((code, p), index) => t.operationEntries index code p := by
  induction raws generalizing index with
  | nil => rfl
  | cons raw rest ih =>
    -- the position fits, so that the operations after this one are entered as well
    obtain ⟨code, p, hdecode, -⟩ := h.operations raw (hraws (by simp))
    rw [List.length_cons] at hindex
    have hrest : (Entry.ofOperations b t.transaction received (index + 1) rest).filter
        Entry.isIndexed = _ :=
      ih (fun _ hmem => hraws (List.mem_cons_of_mem raw hmem)) (by omega)
    have hfits : (index : Int) ≤ int32Max := by omega
    have hplaced : Entry.placed b t.transaction index code p = t.placed index code p := by
      unfold Entry.placed
      rw [hnumber]
      rfl
    have hdecoded : (raw :: rest).filterMap (fun raw => (Operation.decode raw).toOption) =
        (code, p) :: rest.filterMap fun raw => (Operation.decode raw).toOption :=
      List.filterMap_cons_some (by rw [hdecode]; rfl)
    rw [hdecoded, Entry.ofOperations, if_pos hfits, List.filter_append, Entry.indexed_ofOperation,
      hdecode, hrest, List.zipIdx_cons, List.flatMap_cons]
    simp only [hplaced, ofAccountCreation_eq]
    rfl

/-- So the entries of a transaction are those that it is listed with. -/
theorem ofTransaction_eq (h : t.Fits) (hnumber : b.number = t.number)
    (receipts : String → List Receipt) :
    (Entry.ofTransaction (fun id => .ok (receipts id)) b t.transaction).filter Entry.isIndexed =
      t.entries receipts := by
  have hcount := h.operationCount
  have hoperations : ∀ received,
      (Entry.ofOperations b t.transaction received 0 t.content.operations).filter Entry.isIndexed =
        t.operations.zipIdx.flatMap fun ((code, p), index) => t.operationEntries index code p :=
    fun received => ofOperations_eq h hnumber received (List.Subset.refl _) (by omega)
  have hreceived : ∀ received : List Receipt,
      (Entry.ofReceived b t.transaction received).filter Entry.isIndexed =
        .transaction t.transaction :: (t.operations.zipIdx.flatMap
          (fun ((code, p), index) => t.operationEntries index code p) ++
            received.map .receipt) := by
    intro received
    have hreceipts : (received.map Entry.receipt).filter Entry.isIndexed =
        received.map .receipt := by
      apply List.filter_eq_self.2
      intro entry he
      obtain ⟨outcome, -, rfl⟩ := List.mem_map.1 he
      rfl
    rw [Entry.ofReceived, List.filter_cons_of_pos rfl, List.filter_append, hreceipts]
    exact congrArg (fun es => _ :: (es ++ _)) (hoperations received)
  unfold Entry.ofTransaction entries needed
  rw [h.callsContract]
  by_cases hcalls : t.callsContract
  · rw [if_pos hcalls, if_pos hcalls]
    simp only [hreceived, List.map_map]
    rfl
  · rw [if_neg hcalls, if_neg hcalls, hreceived]
    rfl

/-! ## Records of the entries -/

theorem Fits.of_mem_zipIdx (h : t.Fits) {code : Int} {p : Payload} {index : Nat}
    (hmem : ((code, p), index) ∈ t.operations.zipIdx) :
    (index : Int) ≤ int32Max ∧ int32Min ≤ code ∧ code ≤ int32Max := by
  obtain ⟨-, hlt, -⟩ := List.mem_zipIdx hmem
  have hcount := h.operationCount
  have hle : t.operations.length ≤ t.content.operations.length := List.length_filterMap_le _ _
  exact ⟨by omega, h.code (List.fst_mem_of_mem_zipIdx hmem)⟩

/-- What is told by the entries of a transaction, kind by kind. -/
theorem filterMap_entries {α : Type} (f : Entry → Option α) (receipts : String → List Receipt) :
    (t.entries receipts).filterMap f =
      (f (.transaction t.transaction)).toList ++
        (t.operations.zipIdx.flatMap
            (fun ((code, p), index) => (t.operationEntries index code p).filterMap f) ++
          (t.needed receipts).filterMap fun r =>
            f (.receipt (completeReceipt t.transaction r))) := by
  rw [entries, List.filterMap_cons, List.filterMap_append, List.filterMap_flatMap,
    List.filterMap_map]
  cases f (.transaction t.transaction) <;> rfl

/-- Where an operation of a transaction tells one thing, the operations tell a list of them. -/
theorem flatMap_operations {α : Type} {f : Nat → Int → Payload → List α}
    {g : Nat → Int → Payload → α}
    (h : ∀ {code p index}, ((code, p), index) ∈ t.operations.zipIdx →
      f index code p = [g index code p]) :
    t.operations.zipIdx.flatMap (fun ((code, p), index) => f index code p) =
      t.operations.zipIdx.map fun ((code, p), index) => g index code p := by
  rw [List.map_eq_flatMap]
  apply List.flatMap_congr
  rintro ⟨⟨code, p⟩, index⟩ hmem
  exact h hmem

section

variable {receipts : String → List Receipt}

theorem filterMap_transactionRecord? (h : t.Fits) (hnumber : (t.number : Int) ≤ int64Max)
    (hposition : (t.position : Int) ≤ int32Max) :
    (t.entries receipts).filterMap Entry.transactionRecord? = [t.transactionRecord] := by
  have hrecord := h.record hnumber hposition
  have hoperations : ∀ index code p,
      (t.operationEntries index code p).filterMap Entry.transactionRecord? = [] := by
    intro index code p
    simp [operationEntries, Entry.transactionRecord?]
  rw [filterMap_entries]
  simp [Entry.transactionRecord?, hrecord, hoperations, Except.toOption]

theorem filterMap_operationRecord? (h : t.Fits) (hnumber : (t.number : Int) ≤ int64Max)
    (hposition : (t.position : Int) ≤ int32Max) :
    (t.entries receipts).filterMap Entry.operationRecord? = t.operationRecords := by
  have hoperations : ∀ {code p index}, ((code, p), index) ∈ t.operations.zipIdx →
      (t.operationEntries index code p).filterMap Entry.operationRecord? =
        [t.operationRecord index code p] := by
    intro code p index hmem
    obtain ⟨hindex, hcode⟩ := h.of_mem_zipIdx hmem
    have hrecord := placed_record hnumber hposition hindex hcode p
    simp [operationEntries, Function.comp_def, List.filterMap_cons, Entry.operationRecord?, hrecord,
      Except.toOption]
  rw [filterMap_entries, flatMap_operations hoperations]
  simp [Entry.operationRecord?, operationRecords]

theorem filterMap_accountRecord? :
    (t.entries receipts).filterMap Entry.accountRecord? = t.accountRecords := by
  have hoperations : ∀ index code p,
      (t.operationEntries index code p).filterMap Entry.accountRecord? =
        (Operation.account? code p).toList := by
    intro index code p
    simp [operationEntries, Function.comp_def, List.filterMap_cons, Entry.accountRecord?]
  have hall : t.operations.zipIdx.flatMap
      (fun ((code, p), index) => (t.operationEntries index code p).filterMap Entry.accountRecord?) =
        t.accountRecords := by
    -- the positions of operations have no part in the accounts
    simp only [hoperations]
    rw [accountRecords, List.filterMap_eq_flatMap_toList, ← List.zipIdx_map_fst 0 t.operations,
      List.flatMap_map]
    simp
  rw [filterMap_entries, hall]
  simp [Entry.accountRecord?]

theorem filterMap_receiptRecords? (hnumber : (t.number : Int) ≤ int64Max)
    (hreceipts : ∀ r ∈ t.needed receipts, r.Fits) :
    (t.entries receipts).filterMap Entry.receiptRecords? =
      (t.needed receipts).map t.receiptRecords := by
  have hoperations : ∀ index code p,
      (t.operationEntries index code p).filterMap Entry.receiptRecords? = [] := by
    intro index code p
    simp [operationEntries, Entry.receiptRecords?]
  have hall : ((t.needed receipts).filterMap fun r =>
      Entry.receiptRecords? (.receipt (completeReceipt t.transaction r))) =
        (t.needed receipts).map t.receiptRecords := by
    rw [← List.filterMap_eq_map]
    apply List.filterMap_congr
    intro r hr
    simp [Entry.receiptRecords?, receipt_records (hreceipts r hr) hnumber, Except.toOption]
  rw [filterMap_entries, hall]
  simp [Entry.receiptRecords?, hoperations]

end

end Listed

namespace Scan.Chain

variable {chain : Chain} {head : Nat}

/-- The entries of a block. -/
theorem Fits.entries_eq (h : chain.Fits head) {number : Nat} (hpos : 1 ≤ number)
    (hle : number ≤ head) :
    chain.entries number =
      .block (asked (chain.block number) number) ::
        .previousId (asked (chain.block number) number) ::
          (chain.listedIn number).flatMap (Listed.entries chain.receipts) := by
  rw [entries, Entry.ofBlock, List.filter_cons_of_pos rfl, List.filter_cons_of_pos rfl,
    List.filter_flatMap, transactions_asked, List.flatMap_map]
  congr 2
  apply List.flatMap_congr
  intro t ht
  have hfits := h.transactions t (mem_listed.2 ⟨number, hpos, hle, ht⟩)
  exact Listed.ofTransaction_eq hfits (of_mem_listedIn ht).1.symm chain.receipts

theorem listed_succ (chain : Chain) (head : Nat) :
    chain.listed (head + 1) = chain.listed head ++ chain.listedIn (head + 1) := by
  unfold listed
  rw [List.range'_1_concat, List.flatMap_append, List.flatMap_singleton, Nat.add_comm 1 head]

/-- A chain that fits up to a block fits up to those before. -/
theorem Fits.before (h : chain.Fits (head + 1)) : chain.Fits head where
  number := by
    have hnumber := h.number
    omega
  fee number hpos hle := h.fee number hpos (by omega)
  transactionCount number hpos hle := h.transactionCount number hpos (by omega)
  transactions t ht := h.transactions t (by rw [listed_succ]; exact List.mem_append_left _ ht)
  receipts t ht := h.receipts t (by rw [listed_succ]; exact List.mem_append_left _ ht)

theorem Fits.block_record (h : chain.Fits head) {number : Nat} (hpos : 1 ≤ number)
    (hle : number ≤ head) : ∃ record, (asked (chain.block number) number).record = .ok record := by
  have hhead := h.number
  have hword : (number : Int) ≤ int64Max := by omega
  have hnumber : Quantity.blockNumber.int64 (asked (chain.block number) number).number =
      .ok ↑number := int64_eq hword
  have hfee : Quantity.blockFee.int64 (asked (chain.block number) number).fee =
      .ok ↑(chain.block number).fee := int64_eq (h.fee number hpos hle)
  have hlength : (asked (chain.block number) number).transactions.length =
      (chain.block number).transactions.length := List.length_mapIdx
  have hcount : Quantity.transactionCount.int32
      (asked (chain.block number) number).transactions.length = .ok _ :=
    int32_eq (hlength ▸ h.transactionCount number hpos hle)
  unfold Block.record
  rw [hnumber, hfee, hcount]
  exact ⟨_, rfl⟩

/-- What the entries of a chain tell of its transactions. -/
theorem Fits.filterMap_through {α : Type} (h : chain.Fits head) (f : Entry → Option α)
    (hblock : ∀ b, f (.block b) = none) (hprevious : ∀ b, f (.previousId b) = none) :
    (chain.through head).filterMap f =
      (chain.listed head).flatMap fun t => (t.entries chain.receipts).filterMap f := by
  induction head with
  | zero => rfl
  | succ head ih =>
    rw [through, List.filterMap_append, ih h.before, listed_succ, List.flatMap_append,
      h.entries_eq (Nat.succ_pos head) (Nat.le_refl _), List.filterMap_cons_none (hblock _),
      List.filterMap_cons_none (hprevious _), List.filterMap_flatMap]

end Scan.Chain

end ChainIndex
