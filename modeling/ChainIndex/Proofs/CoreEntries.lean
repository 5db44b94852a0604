import ChainIndex.Proofs.Contents
import ChainIndex.Proofs.EntryOrder

/-!
# What blocks alone decide

A node may change its mind about receipts, but not about blocks. Blocks, transactions, operations,
wide tables and accounts are then the same whatever receipts there are: `core` is that part of a
store, and it follows the entries of a chain without receipts. A receipt comes after all operations
of its transaction, so that it is not made where one of them cannot be.
-/

namespace ChainIndex

open Scan (placeId)
open Store (Memory)

/-- The part of a store that blocks decide. -/
def Store.Memory.core (m : Memory) : Memory := { m.indexed with receipts := [], events := [] }

namespace Entry

/-- Whether an entry belongs to the part of a store that blocks decide. -/
def isCore : Entry → Bool
  | .receipt _ | .token _ _ | .event _ _ => false
  | _ => true

/-- An entry that blocks decide does not look at receipts. -/
theorem enter_core {m : Memory} (hfailing : m.failing = []) {entry : Entry}
    (hentry : entry.isCore) : entry.enter m.core = (entry.enter m).map Memory.core := by
  cases entry with
  | refusal e => rfl
  | block b =>
    apply bind_map (p := Memory.core)
    intro record
    apply ite_map
    unfold Memory.addBlock
    rw [Store.Memory.map_ite]
    rfl
  | previousId b =>
    apply ite_map (p := Memory.core)
    apply bind_map (p := Memory.core)
    intro number
    have hsame : m.core.block? number = m.block? number := rfl
    rw [hsame]
    cases m.block? number with
    | none => rfl
    | some previous =>
      simp only
      split <;> rfl
  | transaction tx =>
    apply ite_map (p := Memory.core)
    apply bind_map (p := Memory.core)
    intro record
    unfold Memory.addTransaction
    rw [Store.Memory.map_ite]
    rfl
  | table typeName sample =>
    refine congrArg Except.ok ?_
    unfold Memory.addTable
    rw [apply_ite Memory.core]
    rfl
  | row op =>
    apply ite_map (p := Memory.core)
    rw [addRow_row (by rw [Memory.addTable_failing]; rfl) (addTable_tableFor m.core op),
      addRow_row (by rw [Memory.addTable_failing, hfailing]) (addTable_tableFor m op)]
    rw [tables_addTable, tables_addTable, putEntry_addTable, putEntry_addTable]
    rfl
  | operation op =>
    apply ite_map (p := Memory.core)
    apply bind_map (p := Memory.core)
    intro record
    unfold Memory.addOperation
    rw [Store.Memory.map_ite]
    rfl
  | account holder =>
    apply ite_map (p := Memory.core)
    unfold Memory.addAccount
    rw [Store.Memory.map_ite]
    rfl
  | receipt | token | event => cases hentry

/-- The other entries do not change what blocks decide. -/
theorem Step.core_eq {entry : Entry} {m m' : Memory} (h : Step entry m m')
    (hentry : entry.isCore = false) : m'.core = m.core := by
  cases h with
  | there | receipt => rfl
  | derived _ hsame => rw [Memory.core, hsame, Memory.core]
  | _ => cases hentry

/-- Seen from what blocks decide, the entries that they decide are the only ones. -/
theorem enterAll_core {es : List Entry} {m m' : Memory} (hm : m.WellFormed)
    (hfits : ∀ entry ∈ es, entry.Fits) (h : enterAll es m = (.ok (), m')) :
    enterAll (es.filter isCore) m.core = (.ok (), m'.core) := by
  induction es generalizing m with
  | nil =>
    cases h
    rfl
  | cons entry rest ih =>
    obtain ⟨m₁, hentry, h⟩ := of_enterAll_cons h
    have hfits₁ := hfits entry (by simp)
    have hrest := ih (enter_wellFormed hm hfits₁ hentry) (fun e he => hfits e (by simp [he])) h
    by_cases hcore : entry.isCore
    · rw [List.filter_cons_of_pos hcore]
      simp only [enterAll, enter_core hm.failing hcore, hentry]
      exact hrest
    · rw [List.filter_cons_of_neg hcore]
      have hsame := (step_of_enter hm hfits₁ hentry).core_eq (Bool.eq_false_iff.2 hcore)
      rwa [← hsame]

/-! ## Transactions without receipts -/

section

variable {b : Block} {tx : Transaction} {received : List Receipt}

theorem isIndexed_of_isCore {entry : Entry} (h : entry.isCore) : entry.isIndexed := by
  cases entry with
  | receipt | token | event => cases h
  | _ => rfl

/-- What blocks decide of an operation is what the chain decides of it. -/
theorem core_ofOperation (index : Nat) (raw : Json) :
    (ofOperation b tx received index raw).filter isCore =
      (ofOperation b tx [] index raw).filter isIndexed := by
  have hfilter : (ofOperation b tx received index raw).filter isCore =
      ((ofOperation b tx received index raw).filter isIndexed).filter isCore := by
    rw [List.filter_filter]
    apply List.filter_congr
    intro entry _
    cases hcore : entry.isCore with
    | true => rw [isIndexed_of_isCore hcore]; rfl
    | false => rfl
  rw [hfilter, indexed_ofOperation, indexed_ofOperation]
  cases Operation.decode raw with
  | error e => rfl
  | ok decoded =>
    rw [List.filter_eq_self]
    intro entry he
    simp only [List.mem_cons] at he
    rcases he with rfl | rfl | rfl | he
    · rfl
    · rfl
    · rfl
    · obtain ⟨holder, rfl⟩ := mem_ofAccountCreation he
      rfl

theorem core_ofOperations (index : Nat) (raws : List Json) :
    (ofOperations b tx received index raws).filter isCore =
      (ofOperations b tx [] index raws).filter isIndexed := by
  induction raws generalizing index with
  | nil => rfl
  | cons raw rest ih =>
    rw [ofOperations, ofOperations, List.filter_append, List.filter_append, core_ofOperation]
    split
    · rw [ih]
    · rfl

theorem core_ofReceived :
    (ofReceived b tx received).filter isCore = (ofReceived b tx []).filter isIndexed := by
  have hreceipts : (received.map Entry.receipt).filter isCore = [] := by
    simp [List.filter_map, isCore, Function.comp_def]
  rw [ofReceived, ofReceived, List.filter_cons_of_pos rfl, List.filter_cons_of_pos rfl,
    List.filter_append, List.filter_append, core_ofOperations, hreceipts]
  rfl

/-! ## Operations behind receipts -/

/-- Where all entries of operations can be made, there is one for each of them. -/
theorem exists_operation {start : Nat} {raws : List Json}
    (henter : ∀ entry ∈ ofOperations b tx received start raws, entry.Enterable) {index : Nat}
    (hindex : index < raws.length) :
    ∃ op, .operation op ∈ ofOperations b tx received start raws ∧
      op.id = placeId b.number tx.id (start + index) := by
  induction raws generalizing start index with
  | nil => cases hindex
  | cons raw rest ih =>
    have hfirst : ∀ entry ∈ ofOperation b tx received start raw, entry.Enterable :=
      fun entry he => henter entry (List.mem_append_left _ he)
    cases hdecode : Operation.decode raw with
    | error e =>
      obtain ⟨m, m', -, h⟩ := hfirst (.refusal e) (by simp [ofOperation, hdecode])
      cases h
    | ok decoded =>
      obtain ⟨typeCode, p⟩ := decoded
      have hmem : .operation (placed b tx start typeCode p) ∈
          ofOperation b tx received start raw := by simp [ofOperation, hdecode]
      cases index with
      | zero => exact ⟨_, List.mem_append_left _ hmem, rfl⟩
      | succ index =>
        obtain ⟨m, m', hm, h⟩ := hfirst _ hmem
        have hlast : (start : Int) ≤ int32Max := enter_operation_position hm h
        have hrest : ofOperations b tx received start (raw :: rest) =
            ofOperation b tx received start raw ++ ofOperations b tx received (start + 1) rest := by
          rw [ofOperations, if_pos hlast]
        rw [hrest] at henter ⊢
        obtain ⟨op, hop, hid⟩ := ih (fun entry he => henter entry (List.mem_append_right _ he))
          (Nat.lt_of_succ_lt_succ hindex)
        exact ⟨op, List.mem_append_right _ hop, by rw [hid]; congr 1; omega⟩

/-- A receipt's record is about the transaction that the receipt names. -/
theorem receipt_records {outcome : Receipt} {record : ReceiptRecord} {events : List EventRecord}
    (h : outcome.records = .ok (record, events)) : record.transaction = outcome.transaction := by
  obtain ⟨_, -, h⟩ := of_bind h
  obtain ⟨_, -, h⟩ := of_bind h
  obtain ⟨_, -, h⟩ := of_bind h
  obtain ⟨_, -, h⟩ := of_bind h
  cases h
  rfl

theorem enterAll_grows {es : List Entry} {m m' : Memory} (h : enterAll es m = (.ok (), m')) :
    m.Grows m' := by
  induction es generalizing m with
  | nil =>
    cases h
    exact .refl _
  | cons entry rest ih =>
    obtain ⟨m₁, hentry, h⟩ := of_enterAll_cons h
    exact (enter_grows hentry).trans (ih h)

/-- A receipt that is new in a store is that of an entry. -/
theorem enterAll_receipts {es : List Entry} {m m' : Memory} (hm : m.WellFormed)
    (hfits : ∀ entry ∈ es, entry.Fits) (h : enterAll es m = (.ok (), m')) :
    ∀ r ∈ m'.receipts, r ∈ m.receipts ∨
      ∃ outcome, .receipt outcome ∈ es ∧ r.transaction = outcome.transaction := by
  refine enterAll_carries
    (P := fun seen m' => ∀ r ∈ m'.receipts, r ∈ m.receipts ∨
      ∃ outcome, .receipt outcome ∈ seen ∧ r.transaction = outcome.transaction)
    ?_ hm hfits h fun r hr => .inl hr
  intro seen entry m₁ m₂ _ _ hstep hseen r hr
  have hold : r ∈ m₁.receipts → r ∈ m.receipts ∨
      ∃ outcome, .receipt outcome ∈ seen ++ [entry] ∧ r.transaction = outcome.transaction := by
    intro hr
    rcases hseen r hr with hr | ⟨outcome, houtcome, hsame⟩
    · exact .inl hr
    · exact .inr ⟨outcome, List.mem_append_left _ houtcome, hsame⟩
  cases hstep with
  | @receipt outcome record events _ hrecords _ =>
    rcases List.mem_append.1 hr with hr | hr
    · exact hold hr
    · rw [List.mem_singleton.1 hr]
      exact .inr ⟨outcome, by simp, receipt_records hrecords⟩
  | derived _ hsame =>
    have hreceipts := congrArg Memory.receipts hsame
    exact hold (hreceipts ▸ hr)
  | _ => exact hold hr

end

end Entry

end ChainIndex
