import ChainIndex.Proofs.BlockEntries

/-!
# What an entry does to a store

`Step` lists all that can happen when an entry is made: either it was there and nothing changes, or
one section of the store gets one record more. What such a step carries over, a whole list of
entries does. The sections of a store are read off in this way: each of them has the records of the
entries of its kind, in their order, the first of each key. An entry fails only if its data do not
fit their columns, which `Storable` rules out.
-/

namespace ChainIndex

open Scan (Placed WideTable.name WideTable.columnsOf WideTable.index WideTable.row
  WideTable.position placeId)
open Store (Memory)

namespace Entry

/-! ## Steps -/

/-- What becomes of a store when an entry is made. -/
inductive Step : Entry → Memory → Memory → Prop where
  | there {entry : Entry} {m : Memory} (hmade : entry.Made m) : Step entry m m
  | block {b : Block} {record : BlockRecord} {m : Memory} (hrecord : b.record = .ok record)
      (hfree : m.block? record.number = none) :
      Step (.block b) m { m with blocks := Store.Memory.insertByNumber record m.blocks }
  | previousId {b : Block} {m : Memory} (number : Int) :
      Step (.previousId b) m (m.setBlockId number b.previous)
  | transaction {tx : Transaction} {record : TransactionRecord} {m : Memory}
      (hrecord : tx.record = .ok record) (hfree : m.transaction? tx.id = none) :
      Step (.transaction tx) m { m with transactions := m.transactions ++ [record] }
  | table {typeName : String} {sample : Payload} {m : Memory}
      (hfree : m.table? (WideTable.name typeName) = none) :
      Step (.table typeName sample) m
        { m with
          tables := m.tables ++ [(WideTable.name typeName, ⟨WideTable.columnsOf sample,
            some (WideTable.index (WideTable.name typeName)), []⟩)] }
  | row {op : Placed} {m : Memory}
      (hfree : (tableFor m op).rows.any
        (Store.Memory.isAt op.transaction (WideTable.position op.index)) = false) :
      Step (.row op) m
        { m with
          tables := Store.Memory.putEntry (WideTable.name op.typeName)
            { tableFor m op with
              rows := (tableFor m op).rows ++
                [WideTable.row (tableFor m op).columns op.payload] } m.tables }
  | operation {op : Placed} {record : OperationRecord} {m : Memory}
      (hrecord : op.record = .ok record)
      (hfree : m.operation? (placeId op.blockNumber op.transaction op.index) = none) :
      Step (.operation op) m { m with operations := m.operations ++ [record] }
  | account {holder : AccountRecord} {m : Memory} (hfree : m.account? holder.owner = none) :
      Step (.account holder) m { m with accounts := m.accounts ++ [holder] }
  | receipt {outcome : Receipt} {record : ReceiptRecord} {events : List EventRecord} {m : Memory}
      (hrecords : outcome.records = .ok (record, events))
      (hfree : m.hasReceipt record.transaction record.operation = false) :
      Step (.receipt outcome) m
        { m with receipts := m.receipts ++ [record], events := m.events ++ events }
  /-- The entries of tokens do not change what the chain decides. -/
  | derived {entry : Entry} {m m' : Memory} (hentry : entry.isIndexed = false)
      (hsame : m'.indexed = m.indexed) : Step entry m m'

/-- A table that is put under a new name goes to the end. -/
theorem putEntry_append {α : Type} {key : String} {value value' : α}
    {entries : List (String × α)} (h : entries.lookup key = none) :
    Store.Memory.putEntry key value' (entries ++ [(key, value)]) =
      Store.Memory.putEntry key value' entries := by
  induction entries with
  | nil => simp [Store.Memory.putEntry]
  | cons entry rest ih =>
    obtain ⟨k, v⟩ := entry
    by_cases hk : key = k
    · simp [hk] at h
    · simp only [List.lookup_cons, beq_eq_false_iff_ne.2 hk] at h
      simp only [List.cons_append, Store.Memory.putEntry, if_neg (Ne.symm hk), ih h]

/-- Whether a table is new or was there, what is put under its name lies in the same place. -/
theorem putEntry_addTable (m : Memory) (name : String) (columns : List Column)
    (index : TableIndex) (table : Store.Table) :
    Store.Memory.putEntry name table (m.addTable name columns index).tables =
      Store.Memory.putEntry name table m.tables := by
  unfold Memory.addTable
  split
  · rfl
  · rename_i hnone
    exact putEntry_append (Option.not_isSome_iff_eq_none.1 hnone)

/-- A new table is all that is new. -/
theorem tables_addTable (m : Memory) (name : String) (columns : List Column)
    (index : TableIndex) (tables : List (String × Store.Table)) :
    { m.addTable name columns index with tables } = { m with tables } := by
  unfold Memory.addTable
  split <;> rfl

/-- There is no other way to make an entry. -/
theorem step_of_enter {m m' : Memory} (hm : m.WellFormed) {entry : Entry} (hfits : entry.Fits)
    (h : entry.enter m = .ok m') : Step entry m m' := by
  have hmade := made_of_enter hm hfits h
  cases entry with
  | refusal e => cases h
  | block b =>
    obtain ⟨record, hrecord, h⟩ := of_bind h
    split at h
    · cases h
      exact .there hmade
    · rename_i hnone
      have hfree := Option.not_isSome_iff_eq_none.1 hnone
      rw [Store.Memory.addBlock_of_none hfree] at h
      cases h
      exact .block hrecord hfree
  | previousId b =>
    simp only [enter] at h
    split at h
    · cases h
      exact .there hmade
    · obtain ⟨number, -, h⟩ := of_bind h
      split at h
      · cases h
        exact .there hmade
      · split at h <;> cases h
        · exact .previousId number
        · exact .there hmade
  | transaction tx =>
    simp only [enter] at h
    split at h
    · cases h
      exact .there hmade
    · rename_i hnone
      have hfree := Option.not_isSome_iff_eq_none.1 hnone
      obtain ⟨record, hrecord, h⟩ := of_bind h
      rw [Store.Memory.addTransaction_of_none (by rwa [(transaction_record hrecord).1])] at h
      cases h
      exact .transaction hrecord hfree
  | table typeName sample =>
    cases h
    unfold Memory.addTable
    split
    · exact .there (by assumption)
    · rename_i hnone
      exact .table (Option.not_isSome_iff_eq_none.1 hnone)
  | row op =>
    simp only [enter] at h
    split at h
    · cases h
      exact .there hmade
    · rename_i hnone
      rw [addRow_row (by rw [Memory.addTable_failing, hm.failing]) (addTable_tableFor m op)] at h
      cases h
      rw [tables_addTable, putEntry_addTable]
      exact .row (Bool.eq_false_iff.2 hnone)
  | operation op =>
    simp only [enter] at h
    split at h
    · cases h
      exact .there hmade
    · rename_i hnone
      have hfree := Option.not_isSome_iff_eq_none.1 hnone
      obtain ⟨record, hrecord, h⟩ := of_bind h
      rw [Store.Memory.addOperation_of_none (by rwa [(operation_record hrecord).id])] at h
      cases h
      exact .operation hrecord hfree
  | account holder =>
    simp only [enter] at h
    split at h
    · cases h
      exact .there hmade
    · rename_i hnone
      have hfree := Option.not_isSome_iff_eq_none.1 hnone
      rw [Store.Memory.addAccount_of_none hfree] at h
      cases h
      exact .account hfree
  | receipt outcome =>
    obtain ⟨⟨record, events⟩, hrecords, h⟩ := of_bind h
    change (if m.hasReceipt _ _ then _ else _) = _ at h
    split at h
    · cases h
      exact .there hmade
    · rename_i hnone
      have hfree := Bool.eq_false_iff.2 hnone
      rw [Store.Memory.addReceipt_of_none _ hfree] at h
      cases h
      exact .receipt hrecords hfree
  | token seen registration =>
    obtain ⟨m₁, h₁, hsame, -⟩ := enter_derived m (.token seen registration) rfl
    cases h.symm.trans h₁
    exact .derived rfl hsame
  | event seen told =>
    obtain ⟨m₁, h₁, hsame, -⟩ := enter_derived m (.event seen told) rfl
    cases h.symm.trans h₁
    exact .derived rfl hsame

/-! ## Entries that can be stored -/

/-- What the steps of entries carry over from one store to the next, lists of entries do. -/
theorem enterAll_carries_on {P : List Entry → Memory → Prop}
    (hstep : ∀ {seen entry m m'}, m.WellFormed → entry.Fits → Step entry m m' → P seen m →
      P (seen ++ [entry]) m')
    {seen es : List Entry} {m m' : Memory} (hm : m.WellFormed) (hfits : ∀ entry ∈ es, entry.Fits)
    (h : enterAll es m = (.ok (), m')) (hP : P seen m) : P (seen ++ es) m' := by
  induction es generalizing seen m with
  | nil =>
    cases h
    rwa [List.append_nil]
  | cons entry rest ih =>
    obtain ⟨m₁, hentry, h⟩ := of_enterAll_cons h
    have hfits₁ := hfits entry (by simp)
    have hP₁ := hstep hm hfits₁ (step_of_enter hm hfits₁ hentry) hP
    have hm₁ := enter_wellFormed hm hfits₁ hentry
    have hrest := ih hm₁ (fun e he => hfits e (by simp [he])) h hP₁
    rwa [List.append_assoc] at hrest

/-- So they do where no entries have been seen before. -/
theorem enterAll_carries {P : List Entry → Memory → Prop}
    (hstep : ∀ {seen entry m m'}, m.WellFormed → entry.Fits → Step entry m m' → P seen m →
      P (seen ++ [entry]) m')
    {es : List Entry} {m m' : Memory} (hm : m.WellFormed) (hfits : ∀ entry ∈ es, entry.Fits)
    (h : enterAll es m = (.ok (), m')) (hP : P [] m) : P es m' := by
  have hall := enterAll_carries_on hstep hm hfits h hP
  rwa [List.nil_append] at hall

end Entry

end ChainIndex
