import ChainIndex.Proofs.Resumption
import ChainIndex.Proofs.Unfolding
import ChainIndex.Proofs.WideRows

/-!
# References lead somewhere

The sections of a store refer to each other by ids and positions, and no constraint of the store
ties them together. The order of the writes does: at every moment, however often scanners were cut
short before, a transaction has its block, an operation has its transaction, its block and its row,
and a receipt has all operations of its transaction. One row may be ahead of its operation, that of
the operation which comes next in the chain.
-/

namespace ChainIndex

open Scan (Placed WideTable.name placeId)
open Store (Memory)
open Store.Memory (isAt lookup_of_mem)

/-! ## Lists in which things lie apart -/

/-- Where at most one of two has a property, and some have it, one has it. -/
theorem length_filter_eq_one {α : Type} {p : α → Bool} {l : List α}
    (hapart : l.Pairwise fun a b => p a → ¬p b) (hsome : l.any p) : (l.filter p).length = 1 := by
  have hpair : (l.filter p).Pairwise fun a b => p a → ¬p b := hapart.filter p
  obtain ⟨a, ha, hpa⟩ := List.any_eq_true.1 hsome
  have hmem : a ∈ l.filter p := List.mem_filter.2 ⟨ha, hpa⟩
  cases hfilter : l.filter p with
  | nil => rw [hfilter] at hmem; cases hmem
  | cons b rest =>
    cases rest with
    | nil => rfl
    | cons c rest =>
      rw [hfilter] at hpair
      have hb : b ∈ l.filter p := by simp [hfilter]
      have hc : c ∈ l.filter p := by simp [hfilter]
      exact absurd (List.mem_filter.1 hc).2
        ((List.pairwise_cons.1 hpair).1 c (by simp) (List.mem_filter.1 hb).2)

/-- The rows of wide tables that belong to no operation, with the names of their tables. -/
def Store.Memory.strayRows (m : Memory) : List (String × Row) :=
  m.tables.flatMap fun (name, table) =>
    (table.rows.filter fun row => !m.operations.any fun op =>
      WideTable.name op.typeName == name && isAt op.transaction op.index row).map (name, ·)

namespace Entry.WideRows

variable {es : List Entry} {m : Memory}

/-- A table that is listed is found. -/
theorem table?_of_mem (h : WideRows es m) {name : String} {t : Store.Table}
    (hmem : (name, t) ∈ m.tables) : m.table? name = some t :=
  lookup_of_mem h.names hmem

/-- No two stray rows of a table are at the same place. -/
theorem pairwise_strayRows (h : WideRows es m) :
    m.strayRows.Pairwise fun a b => a.1 = b.1 →
      ∀ transaction index, isAt transaction index a.2 → ¬isAt transaction index b.2 := by
  refine List.pairwise_flatMap.2 ⟨fun table htable => ?_, ?_⟩
  · refine List.pairwise_map.2 (List.Pairwise.filter _ ?_)
    apply (h.apart table.1 table.2 (h.table?_of_mem htable)).imp
    intro row row' hapart _
    exact hapart
  · refine (List.pairwise_map.1 h.names).imp fun hne a ha b hb hname => ?_
    obtain ⟨_, -, rfl⟩ := List.mem_map.1 ha
    obtain ⟨_, -, rfl⟩ := List.mem_map.1 hb
    exact absurd hname hne

/-- A stray row comes from the entry of a row, whose operation is not stored. -/
theorem of_mem_strayRows (h : WideRows es m) {name : String} {row : Row}
    (hmem : (name, row) ∈ m.strayRows) :
    ∃ op, .row op ∈ es ∧ WideTable.name op.typeName = name ∧
      LiesAt row op.transaction op.index ∧ ∀ r, RecordOf op r → r ∉ m.operations := by
  obtain ⟨⟨name', t⟩, htable, hrow⟩ := List.mem_flatMap.1 hmem
  obtain ⟨row', hrow, heq⟩ := List.mem_map.1 hrow
  cases heq
  obtain ⟨hrow, hstray⟩ := List.mem_filter.1 hrow
  obtain ⟨op, hop, hname, -, hlies⟩ := h.origin name t (h.table?_of_mem htable) row hrow
  refine ⟨op, hop, hname, hlies, fun r hr hstored => ?_⟩
  have hat : isAt r.transaction r.index row := (hlies _ _).2 ⟨hr.transaction, hr.index⟩
  have hfound : m.operations.any fun op =>
      WideTable.name op.typeName == name && isAt op.transaction op.index row :=
    List.any_eq_true.2 ⟨r, hstored, by simp [hr.typeName, hname, hat]⟩
  simp [hfound] at hstray

end Entry.WideRows

namespace Scan

/-! ## On the course of a chain -/

namespace Course

section

variable {chain : Chain} {k : Nat} {more : List Entry} {m : Memory}

theorem enterable (h : Course chain k more m) :
    ∀ entry ∈ chain.through k ++ more, entry.Enterable := by
  intro entry he
  obtain ⟨m₁, m₂, hm₁, henter⟩ := Entry.enter_of_mem Memory.wellFormed_empty h.fits h.made he
  exact ⟨m₁, m₂, hm₁, henter⟩

theorem grounded (h : Course chain k more m) {entry : Entry}
    (hentry : entry ∈ chain.through k ++ more) : entry.Grounded (chain.through k ++ more) := by
  obtain ⟨rest, hrest⟩ := h.prefix_through
  have hall := groundedAfter_through chain (k + 1)
  rw [← hrest] at hall
  exact (Entry.groundedAfter_append.1 hall).1.of_mem hentry

/-- The block that an entry stands on is stored. -/
theorem block_of_mem (h : Course chain k more m) {b : Block}
    (hb : .block b ∈ chain.through k ++ more) : (m.block? b.number).isSome := by
  obtain ⟨record, hrecord, hfound⟩ := h.made_of_mem hb
  rwa [(Entry.block_record hrecord).1] at hfound

/-- A stored transaction is that of an entry. -/
theorem transaction_of_mem (h : Course chain k more m) {r : TransactionRecord}
    (hr : r ∈ m.transactions) :
    ∃ tx, .transaction tx ∈ chain.through k ++ more ∧ tx.record = .ok r := by
  rw [Entry.transactions_eq h.fits h.made] at hr
  obtain ⟨entry, hentry, hrecord⟩ := List.mem_filterMap.1 (mem_of_mem_firsts hr)
  cases entry with
  | transaction tx => exact ⟨tx, hentry, Entry.ok_of_toOption hrecord⟩
  | _ => cases hrecord

/-- A stored operation is that of an entry. -/
theorem operation_of_mem (h : Course chain k more m) {r : OperationRecord}
    (hr : r ∈ m.operations) :
    ∃ op, .operation op ∈ chain.through k ++ more ∧ op.record = .ok r := by
  rw [Entry.operations_eq h.fits h.made] at hr
  obtain ⟨entry, hentry, hrecord⟩ := List.mem_filterMap.1 (mem_of_mem_firsts hr)
  cases entry with
  | operation op => exact ⟨op, hentry, Entry.ok_of_toOption hrecord⟩
  | _ => cases hrecord

/-- Every stored transaction has its block. -/
theorem transaction_grounded (h : Course chain k more m) {r : TransactionRecord}
    (hr : r ∈ m.transactions) : (m.block? r.blockNumber).isSome := by
  obtain ⟨tx, htx, hrecord⟩ := h.transaction_of_mem hr
  obtain ⟨b, hb, hnumber⟩ := h.grounded htx
  rw [(Entry.transaction_record hrecord).2, ← hnumber]
  exact h.block_of_mem hb

/-- Every stored operation has its transaction and its block. -/
theorem operation_grounded (h : Course chain k more m) {r : OperationRecord}
    (hr : r ∈ m.operations) :
    (m.transaction? r.transaction).isSome ∧ (m.block? r.blockNumber).isSome := by
  obtain ⟨op, hop, hrecord⟩ := h.operation_of_mem hr
  obtain ⟨-, ⟨tx, htx, hid⟩, b, hb, hnumber⟩ := h.grounded hop
  have hof := Entry.operation_record hrecord
  have hfound : (m.transaction? tx.id).isSome := h.made_of_mem htx
  rw [hof.transaction, hof.blockNumber, ← hid, ← hnumber]
  exact ⟨hfound, h.block_of_mem hb⟩

/-- Every stored operation has one row, in the table of its type. -/
theorem operation_row (h : Course chain k more m) {r : OperationRecord} (hr : r ∈ m.operations) :
    ∃ t, m.table? (WideTable.name r.typeName) = some t ∧
      (t.rows.filter (isAt r.transaction r.index)).length = 1 := by
  obtain ⟨op, hop, hrecord⟩ := h.operation_of_mem hr
  obtain ⟨hrow, -⟩ := h.grounded hop
  have hof := Entry.operation_record hrecord
  obtain ⟨t, htable, hthere⟩ := h.made_of_mem hrow
  have hposition : (op.index : Int) ≤ int64Max := Int.le_trans hof.position (by decide)
  rw [Entry.position_eq hposition, ← hof.transaction, ← hof.index] at hthere
  rw [← hof.typeName] at htable
  have hrows := Entry.wideRows_of_enterAll h.fits h.made
  refine ⟨t, htable, length_filter_eq_one ?_ hthere⟩
  exact (hrows.apart _ t htable).imp fun hapart => hapart _ _

/-! ### Rows ahead of their operations -/

/-- The operations whose entries have been made are the first of the chain. -/
theorem operations_prefix (h : Course chain k more m) :
    (chain.through k ++ more).filterMap Entry.operation? <+:
      operationsThrough chain.block (k + 1) :=
  (tells_through chain (k + 1)).part _ h.prefix_through
    fun entry he => h.enterable entry (List.dropLast_subset _ he)

/-- Where transactions have different ids, an operation is told by its place. -/
theorem operation_eq_of_id (h : Course chain k more m)
    (hdistinct : ((transactionsThrough chain.block (k + 1)).map (·.id)).Nodup) {op op' : Placed}
    (hop : .operation op ∈ chain.through k ++ more)
    (hop' : .operation op' ∈ chain.through k ++ more) (hid : op.id = op'.id) : op = op' := by
  have hmem : ∀ {op : Placed}, .operation op ∈ chain.through k ++ more →
      op ∈ operationsThrough chain.block (k + 1) := by
    intro op hop
    exact h.operations_prefix.subset (List.mem_filterMap.2 ⟨_, hop, rfl⟩)
  exact List.inj_on_of_nodup_map (nodup_operationsThrough hdistinct) (hmem hop) (hmem hop') hid

/-- An operation whose entry has been made is stored. -/
theorem exists_recordOf (h : Course chain k more m)
    (hdistinct : ((transactionsThrough chain.block (k + 1)).map (·.id)).Nodup) {op : Placed}
    (hop : .operation op ∈ chain.through k ++ more) :
    ∃ r ∈ m.operations, op.record = .ok r := by
  have hfound : (m.operation? op.id).isSome := h.made_of_mem hop
  obtain ⟨r, hr⟩ := Option.isSome_iff_exists.1 hfound
  have hmem : r ∈ m.operations := List.mem_of_find?_eq_some hr
  have hid : r.id = op.id := by simpa using List.find?_some hr
  obtain ⟨op', hop', hrecord⟩ := h.operation_of_mem hmem
  have hsame := h.operation_eq_of_id hdistinct hop' hop
    ((Entry.operation_record hrecord).id.symm.trans hid)
  rw [hsame] at hrecord
  exact ⟨r, hmem, hrecord⟩

/-- The operations that are stored are those whose entries have been made, in their order. -/
theorem operations_ids (h : Course chain k more m)
    (hdistinct : ((transactionsThrough chain.block (k + 1)).map (·.id)).Nodup) :
    m.operations.map (·.id) =
      ((chain.through k ++ more).filterMap Entry.operation?).map (·.id) := by
  have hids : ((chain.through k ++ more).filterMap Entry.operationRecord?).map (·.id) =
      ((chain.through k ++ more).filterMap Entry.operation?).map (·.id) := by
    rw [List.map_filterMap, List.map_filterMap]
    apply List.filterMap_congr
    intro entry he
    cases entry with
    | operation op =>
      obtain ⟨r, -, hrecord⟩ := h.exists_recordOf hdistinct he
      have hid : r.id = op.id := (Entry.operation_record hrecord).id
      simp [Entry.operationRecord?, Entry.operation?, hrecord, Except.toOption, hid]
    | _ => rfl
  have hnodup := (h.operations_prefix.map (·.id)).sublist.nodup
    (nodup_operationsThrough hdistinct)
  rw [Entry.operations_eq h.fits h.made, firsts_of_nodup (by rw [hids]; exact hnodup), hids]

/-- A row without its operation is the last thing that has been made, and its operation comes
next. -/
theorem stray_is_last (h : Course chain k more m)
    (hdistinct : ((transactionsThrough chain.block (k + 1)).map (·.id)).Nodup) {name : String}
    {row : Row} (hrow : (name, row) ∈ m.strayRows) :
    ∃ op rest, (chain.through k ++ more).getLast? = some (.row op) ∧
      chain.through (k + 1) = chain.through k ++ more ++ .operation op :: rest ∧
      WideTable.name op.typeName = name ∧ LiesAt row op.transaction op.index := by
  have hrows := Entry.wideRows_of_enterAll h.fits h.made
  obtain ⟨op, hop, hname, hlies, hnone⟩ := hrows.of_mem_strayRows hrow
  have hnot : .operation op ∉ chain.through k ++ more := by
    intro hmem
    obtain ⟨r, hr, hrecord⟩ := h.exists_recordOf hdistinct hmem
    exact hnone r (Entry.operation_record hrecord) hr
  obtain ⟨rest, hrest⟩ := h.prefix_through
  have hfollowed := rowsFollowed_through chain (k + 1)
  rw [← hrest] at hfollowed
  obtain ⟨hlast, hnext⟩ := hfollowed.of_prefix hop hnot
  obtain ⟨rest', rfl⟩ := List.head?_eq_some_iff.1 hnext
  exact ⟨op, rest', hlast, hrest.symm, hname, hlies⟩

/-- At most one row is without its operation, and that operation comes next in the chain. -/
theorem strayRows_eq (h : Course chain k more m)
    (hdistinct : ((transactionsThrough chain.block (k + 1)).map (·.id)).Nodup) :
    m.strayRows = [] ∨ ∃ row op stored rest,
      m.strayRows = [(WideTable.name op.typeName, row)] ∧ isAt op.transaction op.index row ∧
        operationsThrough chain.block (k + 1) = stored ++ op :: rest ∧
        m.operations.map (·.id) = stored.map (·.id) := by
  cases hstray : m.strayRows with
  | nil => exact .inl rfl
  | cons first others =>
    right
    obtain ⟨name, row⟩ := first
    have hfirst : (name, row) ∈ m.strayRows := by simp [hstray]
    obtain ⟨op, rest, hlast, hrest, hname, hlies⟩ := h.stray_is_last hdistinct hfirst
    -- any other stray row would lie at the same place
    have hnone : others = [] := by
      cases others with
      | nil => rfl
      | cons second others =>
        have hsecond : second ∈ m.strayRows := by simp [hstray]
        obtain ⟨op', -, hlast', -, hname', hlies'⟩ := h.stray_is_last hdistinct hsecond
        rw [hlast] at hlast'
        cases hlast'
        have hpairwise := (Entry.wideRows_of_enterAll h.fits h.made).pairwise_strayRows
        rw [hstray] at hpairwise
        have hapart := (List.pairwise_cons.1 hpairwise).1 second (by simp) (hname.symm.trans hname')
        exact absurd ((hlies' _ _).2 ⟨rfl, rfl⟩) (hapart _ _ ((hlies _ _).2 ⟨rfl, rfl⟩))
    -- the operations up to this one
    have hmade : chain.through k ++ more ++ [.operation op] <+: chain.through (k + 1) :=
      ⟨rest, by rw [hrest]; simp⟩
    have htold := (tells_through chain (k + 1)).part _ hmade (by
      rw [List.dropLast_concat]
      exact h.enterable)
    rw [List.filterMap_append] at htold
    obtain ⟨later, hlater⟩ := htold
    refine ⟨row, op, (chain.through k ++ more).filterMap Entry.operation?, later, ?_,
      (hlies _ _).2 ⟨rfl, rfl⟩, ?_, h.operations_ids hdistinct⟩
    · rw [hnone, hname]
    · rw [← hlater]
      simp [Entry.operation?]

end

end Course

/-! ## At every moment -/

/-- References of a store lead somewhere. -/
structure Intact (blocks : Nat → Block) (m : Memory) : Prop where
  /-- A transaction has its block. -/
  transactions : ∀ r ∈ m.transactions, (m.block? r.blockNumber).isSome
  /-- An operation has its transaction, its block and its row. -/
  operations : ∀ r ∈ m.operations,
    (m.transaction? r.transaction).isSome ∧ (m.block? r.blockNumber).isSome ∧
      ∃ t, m.table? (WideTable.name r.typeName) = some t ∧
        (t.rows.filter (isAt r.transaction r.index)).length = 1
  /-- One row may be without its operation: that of the operation which comes after the stored ones
  in the chain. -/
  rows : m.strayRows = [] ∨ ∃ row op stored rest number,
    m.strayRows = [(WideTable.name op.typeName, row)] ∧ isAt op.transaction op.index row ∧
      operationsThrough blocks number = stored ++ op :: rest ∧
      m.operations.map (·.id) = stored.map (·.id)
  /-- A receipt has all operations of its transaction. -/
  receipts : ∀ r ∈ m.receipts, ∀ number tx, 1 ≤ number →
    tx ∈ (asked (blocks number) number).transactions → r.transaction = tx.id →
    ∀ index < tx.operations.length, (m.operation? (placeId number tx.id index)).isSome

theorem mem_transactionsThrough {blocks : Nat → Block} {number k : Nat} {tx : Transaction}
    (hpos : 1 ≤ number) (hle : number ≤ k) (h : tx ∈ (asked (blocks number) number).transactions) :
    tx ∈ transactionsThrough blocks k := by
  induction k with
  | zero => omega
  | succ k ih =>
    rcases Nat.lt_or_eq_of_le hle with hlt | rfl
    · exact List.mem_append_left _ (ih (Nat.le_of_lt_succ hlt))
    · exact List.mem_append_right _ h

/-- Runs are started after the checkpoint and cut short wherever it may be, on a store that was
empty at first and against a node whose blocks do not change, whose transactions have different ids
and do not get each other's receipts. At every moment all references of the store lead somewhere. -/
theorem references_intact {ω : Type} {env : Surroundings ω} {resting : ω → ω → Prop}
    {blocks : Nat → Block} (hfixed : env.FixedBlocks blocks) (hreceipts : env.OwnReceipts)
    (hdistinct : ∀ number, ((transactionsThrough blocks number).map (·.id)).Nodup)
    {s : Situation ω} (hs : Reachable env resting (· = none) s) : Intact blocks s.memory := by
  obtain ⟨k, hunfolding⟩ := hs.unfolding hfixed hreceipts
  obtain ⟨more, hcourse⟩ := hunfolding.course
  refine ⟨fun r hr => hcourse.transaction_grounded hr, fun r hr => ?_, ?_, ?_⟩
  · obtain ⟨htransaction, hblock⟩ := hcourse.operation_grounded hr
    exact ⟨htransaction, hblock, hcourse.operation_row hr⟩
  · rcases hcourse.strayRows_eq (hdistinct (k + 1)) with hnone | ⟨row, op, stored, rest, hone⟩
    · exact .inl hnone
    · exact .inr ⟨row, op, stored, rest, k + 1, hone⟩
  · intro r hr number tx hpos htx hid
    obtain ⟨number', tx', hpos', htx', hid', hthere⟩ := hunfolding.backed r hr
    -- a transaction of the same id is the same
    have hsame : tx' = tx := by
      have hmem := mem_transactionsThrough hpos (Nat.le_max_left number number') htx
      have hmem' := mem_transactionsThrough hpos' (Nat.le_max_right number number') htx'
      exact List.inj_on_of_nodup_map (hdistinct (max number number')) hmem' hmem
        (hid'.symm.trans hid)
    subst hsame
    have hnumber : number' = number :=
      (blockNumber_of_mem_asked htx').symm.trans (blockNumber_of_mem_asked htx)
    subst hnumber
    exact hthere

/-- A chain whose first block has a transfer, and whose other blocks are empty. -/
def loneTransfer (number : Nat) : Block := if number = 1 then transferring else {}

/-- Surroundings in which there is the first of these blocks, and balances cannot be had. -/
def besideTransfer : Surroundings Bool :=
  .undisturbed ⟨loneTransfer, fun _ => []⟩ (.lone transferring (.node "closed")) 1

/-- How things stand at the moments of a run there. -/
def transferMoments : List (Situation Bool) :=
  (launch ⟨1, Observer.standard "caller"⟩ none 3).moments besideTransfer.answer
    ⟨false, Memory.empty, Cache.empty⟩

/-- The run is cut short between the two writes of its operation. -/
def halfStored : Situation Bool :=
  transferMoments.getD 14 ⟨false, Memory.empty, Cache.empty⟩

theorem transactionsThrough_loneTransfer (number : Nat) :
    transactionsThrough loneTransfer (number + 1) = (asked transferring 1).transactions := by
  induction number with
  | zero => rfl
  | succ number ih =>
    have hempty : (asked (loneTransfer (number + 2)) (number + 2)).transactions = [] := rfl
    rw [transactionsThrough, ih, hempty, List.append_nil]

theorem references_intact_of_half_stored :
    halfStored.memory.strayRows.length = 1 ∧ halfStored.memory.operations.length = 0 ∧
      Intact loneTransfer halfStored.memory := by
  have hfixed : besideTransfer.FixedBlocks loneTransfer := by
    intro number world b hreply
    exact ((offers_undisturbed _ _ _).block number world b hreply).1
  have hreceipts : besideTransfer.OwnReceipts := by
    intro transaction world received hreply r hr
    cases hreply
    cases hr
  have hdistinct : ∀ number, ((transactionsThrough loneTransfer number).map (·.id)).Nodup := by
    intro number
    cases number with
    | zero => exact List.nodup_nil
    | succ number =>
      rw [transactionsThrough_loneTransfer]
      decide
  have hlength : 14 < transferMoments.length := by decide +kernel
  have hmoment : halfStored ∈ transferMoments := by
    unfold halfStored
    rw [List.getD_eq_getElem?_getD, List.getElem?_eq_getElem hlength]
    exact List.getElem_mem hlength
  have hrest : (fun _ _ : Bool => True) false false := trivial
  have hcut : Reachable besideTransfer (fun _ _ => True) (· = none) halfStored :=
    .run 1 3 "caller" (.empty false) hrest rfl hmoment
  exact ⟨by decide +kernel, by decide +kernel,
    references_intact hfixed hreceipts hdistinct hcut⟩

end Scan

end ChainIndex
