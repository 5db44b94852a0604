import ChainIndex.Proofs.Steps
import Mathlib.Data.List.Induction

/-!
# The contents of a store

Where a list of entries has been made on an empty store, each section of the store is known: it has
the records of the entries of its kind, in the order of the entries, the first of each key. Only
blocks lie in the order of their numbers, which is that of the entries where these ascend.
-/

namespace ChainIndex

open Store (Memory)

/-! ## The first records of their keys -/

section

variable {α κ : Type} [DecidableEq κ] {key : α → κ}

/-- Add a record, unless its key is there. -/
def addNew (key : α → κ) (records : List α) (a : α) : List α :=
  if key a ∈ records.map key then records else records ++ [a]

/-- The records of a list whose key has not come before, in their order. -/
def firsts (key : α → κ) (records : List α) : List α := records.foldl (addNew key) []

theorem firsts_concat (l : List α) (a : α) :
    firsts key (l ++ [a]) = addNew key (firsts key l) a := by
  simp [firsts]

theorem mem_of_mem_firsts {l : List α} {a : α} (h : a ∈ firsts key l) : a ∈ l := by
  induction l using List.reverseRecOn with
  | nil => exact h
  | append_singleton l b ih =>
    rw [firsts_concat, addNew] at h
    split at h
    · exact List.mem_append_left _ (ih h)
    · rcases List.mem_append.1 h with h | h
      · exact List.mem_append_left _ (ih h)
      · exact List.mem_append_right _ h

/-- Where keys are distinct, every record is the first of its key. -/
theorem firsts_of_nodup {l : List α} (h : (l.map key).Nodup) : firsts key l = l := by
  induction l using List.reverseRecOn with
  | nil => rfl
  | append_singleton l b ih =>
    rw [List.map_append, List.nodup_append] at h
    obtain ⟨hl, -, hapart⟩ := h
    have hnew : key b ∉ l.map key := fun hmem => hapart _ hmem (key b) (by simp) rfl
    rw [firsts_concat, ih hl, addNew, if_neg hnew]

end

namespace Entry

/-! ## Sections -/

/-- The number of a block's entry. -/
def blockNumber? : Entry → Option Int
  | .block b => some b.number
  | _ => none

/-- The record of a transaction's entry. -/
def transactionRecord? : Entry → Option TransactionRecord
  | .transaction tx => tx.record.toOption
  | _ => none

/-- The record of an operation's entry. -/
def operationRecord? : Entry → Option OperationRecord
  | .operation op => op.record.toOption
  | _ => none

/-- The account of an entry. -/
def accountRecord? : Entry → Option AccountRecord
  | .account holder => some holder
  | _ => none

/-- The record of a receipt's entry, with those of its events. -/
def receiptRecords? : Entry → Option (ReceiptRecord × List EventRecord)
  | .receipt outcome => outcome.records.toOption
  | _ => none

section

variable {es : List Entry} {m m' : Memory}

/-- A section to which every step adds the record of its entry, unless the key is there. -/
theorem section_eq {α κ : Type} [DecidableEq κ] (records : Memory → List α) {key : α → κ}
    {record? : Entry → Option α} (hempty : records Memory.empty = [])
    (hstep : ∀ {entry m m'}, Step entry m m' →
      records m' = (record? entry).elim (records m) (addNew key (records m)))
    (hfits : ∀ entry ∈ es, entry.Fits) (h : enterAll es Memory.empty = (.ok (), m)) :
    records m = firsts key (es.filterMap record?) := by
  refine enterAll_carries (P := fun seen m => records m = firsts key (seen.filterMap record?)) ?_
    Memory.wellFormed_empty hfits h hempty
  intro seen entry m m' _ _ h hseen
  rw [hstep h, hseen, List.filterMap_append]
  cases hrecord : record? entry with
  | none => simp [hrecord]
  | some a => simp [hrecord, firsts_concat]

/-- A record whose key is there is not added. -/
theorem addNew_of_find? {α κ : Type} [DecidableEq κ] {key : α → κ} {records : List α} {a : α}
    {k : κ} (hk : key a = k) (h : (records.find? (key · == k)).isSome) :
    addNew key records a = records := by
  obtain ⟨b, hb, hkey⟩ := List.find?_isSome.1 h
  have hmem : key a ∈ records.map key := List.mem_map.2 ⟨b, hb, by rw [hk]; exact beq_iff_eq.1 hkey⟩
  exact if_pos hmem

/-- A record whose key is free is added. -/
theorem addNew_of_none {α κ : Type} [DecidableEq κ] {key : α → κ} {records : List α} {a : α}
    {k : κ} (hk : key a = k) (h : records.find? (key · == k) = none) :
    addNew key records a = records ++ [a] := by
  have hnew : key a ∉ records.map key := by
    intro hmem
    obtain ⟨b, hb, hkey⟩ := List.mem_map.1 hmem
    have := List.find?_eq_none.1 h b hb
    simp [hkey, hk] at this
  exact if_neg hnew

/-- A block past all others goes to the end. -/
theorem insertByNumber_of_lt {record : BlockRecord} {records : List BlockRecord}
    (h : ∀ r ∈ records, r.number < record.number) :
    Store.Memory.insertByNumber record records = records ++ [record] := by
  induction records with
  | nil => rfl
  | cons r rest ih =>
    have hlt := h r (by simp)
    rw [Store.Memory.insertByNumber, if_neg (by omega), ih fun r hr => h r (by simp [hr])]
    rfl

/-- The id of a block may change, its number does not. -/
theorem numbers_setBlockId (m : Memory) (number : Int) (id : String) :
    (m.setBlockId number id).blocks.map (·.number) = m.blocks.map (·.number) :=
  Store.Memory.map_updateFirst m.blocks fun _ _ => rfl

/-- The blocks of a store are those of the entries, where these come in ascending order. -/
theorem blockNumbers_eq (hfits : ∀ entry ∈ es, entry.Fits)
    (h : enterAll es Memory.empty = (.ok (), m))
    (hascending : (es.filterMap blockNumber?).Pairwise (· < ·)) :
    m.blocks.map (·.number) = es.filterMap blockNumber? := by
  refine enterAll_carries
    (P := fun seen m => (seen.filterMap blockNumber?).Pairwise (· < ·) →
      m.blocks.map (·.number) = seen.filterMap blockNumber?)
    ?_ Memory.wellFormed_empty hfits h (fun _ => rfl) hascending
  intro seen entry m m' _ _ hstep hseen hpairwise
  rw [List.filterMap_append] at hpairwise ⊢
  obtain ⟨hbefore, -, hcross⟩ := List.pairwise_append.1 hpairwise
  have hnumbers := hseen hbefore
  -- the number of a block of the store has come before
  have hlt : ∀ b : Block, entry = .block b → ∀ r ∈ m.blocks, r.number < b.number := by
    rintro b rfl r hr
    have hmem : r.number ∈ seen.filterMap blockNumber? := hnumbers ▸ List.mem_map_of_mem hr
    exact hcross r.number hmem b.number (by simp [blockNumber?])
  have hother : blockNumber? entry = none →
      m'.blocks.map (·.number) = m.blocks.map (·.number) →
      m'.blocks.map (·.number) =
        seen.filterMap blockNumber? ++ [entry].filterMap blockNumber? := by
    intro hnone hsame
    simp only [List.filterMap_cons, hnone, List.filterMap_nil, List.append_nil]
    exact hsame.trans hnumbers
  cases hstep with
  | there hmade =>
    cases entry with
    | block b =>
      obtain ⟨record, hrecord, hfound⟩ := hmade
      obtain ⟨r, hr, hnumber⟩ := List.find?_isSome.1 hfound
      have hless := hlt b rfl r hr
      have hsame := (block_record hrecord).1
      rw [beq_iff_eq] at hnumber
      omega
    | _ => exact hother rfl rfl
  | @block b record _ hrecord _ =>
    have hsame := (block_record hrecord).1
    have hlast := insertByNumber_of_lt fun r hr => hsame ▸ hlt b rfl r hr
    simp [hlast, hnumbers, hsame, blockNumber?]
  | previousId number => exact hother rfl (numbers_setBlockId m number _)
  | derived hentry hsame =>
    have hblocks := congrArg Memory.blocks hsame
    cases entry with
    | token | event => exact hother rfl (congrArg (List.map (·.number)) hblocks)
    | _ => cases hentry
  | _ => exact hother rfl rfl

/-- The transactions of a store are those of the entries, the first of each id. -/
theorem transactions_eq (hfits : ∀ entry ∈ es, entry.Fits)
    (h : enterAll es Memory.empty = (.ok (), m)) :
    m.transactions = firsts (·.id) (es.filterMap transactionRecord?) := by
  refine section_eq (·.transactions) rfl ?_ hfits h
  intro entry m m' hstep
  cases hstep with
  | there hmade =>
    cases entry with
    | transaction tx =>
      cases hrecord : tx.record with
      | error e => simp [transactionRecord?, hrecord, Except.toOption]
      | ok record =>
        have hadd := addNew_of_find? (transaction_record hrecord).1 hmade
        simpa [transactionRecord?, hrecord, Except.toOption] using hadd.symm
    | _ => rfl
  | transaction hrecord hfree =>
    have hadd := addNew_of_none (transaction_record hrecord).1 hfree
    simpa [transactionRecord?, hrecord, Except.toOption] using hadd.symm
  | derived hentry hsame =>
    have hsame := congrArg Memory.transactions hsame
    cases entry with
    | token | event => exact hsame
    | _ => cases hentry
  | _ => rfl

/-- So are its operations. -/
theorem operations_eq (hfits : ∀ entry ∈ es, entry.Fits)
    (h : enterAll es Memory.empty = (.ok (), m)) :
    m.operations = firsts (·.id) (es.filterMap operationRecord?) := by
  refine section_eq (·.operations) rfl ?_ hfits h
  intro entry m m' hstep
  cases hstep with
  | there hmade =>
    cases entry with
    | operation op =>
      cases hrecord : op.record with
      | error e => simp [operationRecord?, hrecord, Except.toOption]
      | ok record =>
        have hadd := addNew_of_find? (operation_record hrecord).id hmade
        simpa [operationRecord?, hrecord, Except.toOption] using hadd.symm
    | _ => rfl
  | operation hrecord hfree =>
    have hadd := addNew_of_none (operation_record hrecord).id hfree
    simpa [operationRecord?, hrecord, Except.toOption] using hadd.symm
  | derived hentry hsame =>
    have hsame := congrArg Memory.operations hsame
    cases entry with
    | token | event => exact hsame
    | _ => cases hentry
  | _ => rfl

/-- So are its accounts, by their addresses. -/
theorem accounts_eq (hfits : ∀ entry ∈ es, entry.Fits)
    (h : enterAll es Memory.empty = (.ok (), m)) :
    m.accounts = firsts (·.owner) (es.filterMap accountRecord?) := by
  refine section_eq (·.accounts) rfl ?_ hfits h
  intro entry m m' hstep
  cases hstep with
  | there hmade =>
    cases entry with
    | account holder => exact (addNew_of_find? rfl hmade).symm
    | _ => rfl
  | account hfree => exact (addNew_of_none rfl hfree).symm
  | derived hentry hsame =>
    have hsame := congrArg Memory.accounts hsame
    cases entry with
    | token | event => exact hsame
    | _ => cases hentry
  | _ => rfl

/-- The operation that a receipt is about. -/
def receiptKey (records : ReceiptRecord × List EventRecord) : String × Int :=
  (records.1.transaction, records.1.operation)

/-- Receipts and their events come together, and a receipt is there for an operation if one of its
key is. -/
theorem hasReceipt_iff {stored : List (ReceiptRecord × List EventRecord)}
    (hstored : m.receipts = stored.map (·.1)) (records : ReceiptRecord × List EventRecord) :
    m.hasReceipt records.1.transaction records.1.operation ↔
      receiptKey records ∈ stored.map receiptKey := by
  rw [Store.Memory.hasReceipt_iff, hstored, List.map_map]
  rfl

/-- The receipts of a store are those of the entries, the first for each operation, and its events
are theirs. -/
theorem receipts_eq (hfits : ∀ entry ∈ es, entry.Fits)
    (h : enterAll es Memory.empty = (.ok (), m)) :
    m.receipts = (firsts receiptKey (es.filterMap receiptRecords?)).map (·.1) ∧
      m.events = (firsts receiptKey (es.filterMap receiptRecords?)).flatMap (·.2) := by
  refine enterAll_carries
    (P := fun seen m =>
      m.receipts = (firsts receiptKey (seen.filterMap receiptRecords?)).map (·.1) ∧
        m.events = (firsts receiptKey (seen.filterMap receiptRecords?)).flatMap (·.2))
    ?_ Memory.wellFormed_empty hfits h ⟨rfl, rfl⟩
  intro seen entry m m' _ _ hstep ⟨hreceipts, hevents⟩
  rw [List.filterMap_append]
  -- other entries bring no receipts
  have hother : receiptRecords? entry = none → m'.receipts = m.receipts →
      m'.events = m.events →
      m'.receipts = (firsts receiptKey (seen.filterMap receiptRecords? ++
        [entry].filterMap receiptRecords?)).map (·.1) ∧
      m'.events = (firsts receiptKey (seen.filterMap receiptRecords? ++
        [entry].filterMap receiptRecords?)).flatMap (·.2) := by
    intro hnone hreceipts' hevents'
    simp only [List.filterMap_cons, hnone, List.filterMap_nil, List.append_nil]
    exact ⟨hreceipts'.trans hreceipts, hevents'.trans hevents⟩
  cases hstep with
  | there hmade =>
    cases entry with
    | receipt outcome =>
      obtain ⟨record, events, hrecords, hfound⟩ := hmade
      have hmem := (hasReceipt_iff hreceipts (record, events)).1 hfound
      simp only [List.filterMap_cons, receiptRecords?, hrecords, Except.toOption,
        List.filterMap_nil, firsts_concat, addNew, if_pos hmem]
      exact ⟨hreceipts, hevents⟩
    | _ => exact hother rfl rfl rfl
  | @receipt outcome record events _ hrecords hfree =>
    have hnew := mt (hasReceipt_iff hreceipts (record, events)).2 (Bool.eq_false_iff.1 hfree)
    simp only [List.filterMap_cons, receiptRecords?, hrecords, Except.toOption,
      List.filterMap_nil, firsts_concat, addNew, if_neg hnew, List.map_append,
      List.flatMap_append, hreceipts, hevents]
    simp
  | derived hentry hsame =>
    have hreceipts' := congrArg Memory.receipts hsame
    have hevents' := congrArg Memory.events hsame
    cases entry with
    | token | event => exact hother rfl hreceipts' hevents'
    | _ => cases hentry
  | _ => exact hother rfl rfl rfl

end

end Entry

end ChainIndex
