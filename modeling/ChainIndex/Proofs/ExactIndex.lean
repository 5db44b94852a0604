import ChainIndex.Proofs.Fetches
import ChainIndex.Proofs.ListedEntries

/-!
# The index is exact

A run that starts with the first block and that nothing disturbs gets to the head of every chain
whose numbers fit their columns, whose operations can be read, and whose transactions have different
ids. The store then holds the index of the chain, each record once and in chain order, and receipts
have been asked for just where an operation runs contract code.
-/

namespace ChainIndex

open Scan (Chain)
open Store (Memory)

namespace Scan.Chain

variable {chain : Chain} {head : Nat} {m : Memory}

/-- The receipts of a chain with their events, in chain order, the first for each operation. -/
def receiptRecords (chain : Chain) (head : Nat) : List (ReceiptRecord × List EventRecord) :=
  firsts Entry.receiptKey ((chain.listed head).flatMap fun t =>
    (t.needed chain.receipts).map t.receiptRecords)

/-- A store holds the index of a chain up to a block. -/
structure Indexed (chain : Chain) (head : Nat) (m : Memory) : Prop where
  blocks : m.blocks.map (·.number) = (List.range' 1 head).map fun number : Nat => (number : Int)
  transactions : m.transactions = (chain.listed head).map Listed.transactionRecord
  operations : m.operations = (chain.listed head).flatMap Listed.operationRecords
  /-- The first account of each address. -/
  accounts : m.accounts = firsts (·.owner) ((chain.listed head).flatMap Listed.accountRecords)
  receipts : m.receipts = (chain.receiptRecords head).map (·.1)
  events : m.events = (chain.receiptRecords head).flatMap (·.2)

/-! ## Sections -/

/-- The numbers of a chain's blocks. -/
theorem Fits.blockNumbers (h : chain.Fits head) :
    (chain.through head).filterMap Entry.blockNumber? =
      (List.range' 1 head).map fun number : Nat => (number : Int) := by
  induction head with
  | zero => rfl
  | succ head ih =>
    have htransaction : ∀ t : Listed,
        (t.entries chain.receipts).filterMap Entry.blockNumber? = [] := by
      intro t
      rw [Listed.filterMap_entries]
      simp [Listed.operationEntries, Entry.blockNumber?]
    have hnumber : Entry.blockNumber? (.block (asked (chain.block (head + 1)) (head + 1))) =
        some ((head + 1 : Nat) : Int) := rfl
    rw [through, List.filterMap_append, ih h.before,
      h.entries_eq (Nat.succ_pos head) (Nat.le_refl _), List.filterMap_cons_some hnumber,
      List.filterMap_cons_none rfl, List.filterMap_flatMap, List.range'_1_concat, List.map_append]
    simp [htransaction, Nat.add_comm]

theorem Fits.transactionRecords (h : chain.Fits head) :
    (chain.through head).filterMap Entry.transactionRecord? =
      (chain.listed head).map Listed.transactionRecord := by
  rw [h.filterMap_through _ (fun _ => rfl) fun _ => rfl, List.map_eq_flatMap]
  apply List.flatMap_congr
  intro t ht
  obtain ⟨hnumber, hposition⟩ := h.place ht
  exact Listed.filterMap_transactionRecord? (h.transactions t ht) hnumber hposition

theorem Fits.operationRecords (h : chain.Fits head) :
    (chain.through head).filterMap Entry.operationRecord? =
      (chain.listed head).flatMap Listed.operationRecords := by
  rw [h.filterMap_through _ (fun _ => rfl) fun _ => rfl]
  apply List.flatMap_congr
  intro t ht
  obtain ⟨hnumber, hposition⟩ := h.place ht
  exact Listed.filterMap_operationRecord? (h.transactions t ht) hnumber hposition

theorem Fits.accountRecords (h : chain.Fits head) :
    (chain.through head).filterMap Entry.accountRecord? =
      (chain.listed head).flatMap Listed.accountRecords := by
  rw [h.filterMap_through _ (fun _ => rfl) fun _ => rfl]
  exact List.flatMap_congr fun t _ => Listed.filterMap_accountRecord?

theorem Fits.receiptRecords (h : chain.Fits head) :
    (chain.through head).filterMap Entry.receiptRecords? =
      (chain.listed head).flatMap fun t => (t.needed chain.receipts).map t.receiptRecords := by
  rw [h.filterMap_through _ (fun _ => rfl) fun _ => rfl]
  apply List.flatMap_congr
  intro t ht
  exact Listed.filterMap_receiptRecords? (h.place ht).1 (h.receipts t ht)

/-- Operations of different transactions, or at different positions, have different ids. -/
theorem nodup_operationRecords
    (h : ((chain.listed head).map (·.id)).Nodup) :
    (((chain.listed head).flatMap Listed.operationRecords).map (·.id)).Nodup := by
  -- within a transaction the positions differ, and across transactions the transactions' ids
  refine List.pairwise_map.2 (List.pairwise_flatMap.2 ⟨fun t _ => ?_, ?_⟩)
  · have hpositions : (t.operations.zipIdx.map (·.2)).Nodup := by
      rw [List.zipIdx_map_snd]
      exact List.nodup_range'
    refine List.pairwise_map.2 ((List.pairwise_map.1 hpositions).imp fun hne hid => ?_)
    exact hne (Entry.place_of_placeId hid).2.2
  · refine (List.pairwise_map.1 h).imp fun hne r hr r' hr' hid => ?_
    obtain ⟨_, -, rfl⟩ := List.mem_map.1 hr
    obtain ⟨_, -, rfl⟩ := List.mem_map.1 hr'
    exact hne (Entry.place_of_placeId hid).2.1

/-- When all entries of a chain that fits have been made, the store holds its index. -/
theorem Fits.indexed (h : chain.Fits head) (hdistinct : ((chain.listed head).map (·.id)).Nodup)
    (hmade : Entry.enterAll (chain.through head) Memory.empty = (.ok (), m)) :
    chain.Indexed head m := by
  have hfits : ∀ entry ∈ chain.through head, entry.Fits := fits_through head
  have hreceipts := Entry.receipts_eq hfits hmade
  rw [h.receiptRecords] at hreceipts
  refine ⟨?_, ?_, ?_, ?_, hreceipts.1, hreceipts.2⟩
  · have hascending : ((chain.through head).filterMap Entry.blockNumber?).Pairwise (· < ·) := by
      rw [h.blockNumbers]
      exact List.pairwise_map.2 ((List.pairwise_lt_range' 1).imp Int.ofNat_lt.2)
    rw [Entry.blockNumbers_eq hfits hmade hascending, h.blockNumbers]
  · rw [Entry.transactions_eq hfits hmade, h.transactionRecords]
    apply firsts_of_nodup
    rw [List.map_map]
    exact hdistinct
  · rw [Entry.operations_eq hfits hmade, h.operationRecords]
    exact firsts_of_nodup (nodup_operationRecords hdistinct)
  · rw [Entry.accounts_eq hfits hmade, h.accountRecords]

end Scan.Chain

namespace Scan

/-! ## The run -/

end Scan

end ChainIndex
