import ChainIndex.Proofs.Listing
import ChainIndex.Proofs.StoredReceipts

/-!
# Events and their receipts

An event is stored under the transaction of its receipt, but under the block and the operation that
it names itself. A receipt that leaves out its block is completed, an event that does is not. So the
events of a receipt are found by its transaction and operation where they name these themselves, and
an event without numbers of its own is found with operation zero.
-/

namespace ChainIndex

open Store (Memory)

/-! ## Joining events to receipts -/

/-- An event with the transaction, the block and the operation of a receipt. -/
structure EventRecord.BelongsTo (event : EventRecord) (receipt : ReceiptRecord) : Prop where
  transaction : event.transaction = receipt.transaction
  blockNumber : event.blockNumber = receipt.blockNumber
  operation : event.operation = receipt.operation

/-- Whether an event is found by the transaction and the operation of a receipt. -/
def EventRecord.joins (receipt : ReceiptRecord) (event : EventRecord) : Bool :=
  event.transaction == receipt.transaction && event.operation == receipt.operation

/-- Every stored receipt with the events that its transaction and its operation find. -/
def Store.Memory.joined (m : Memory) : List (ReceiptRecord × List EventRecord) :=
  m.receipts.map fun receipt => (receipt, m.events.filter (·.joins receipt))

theorem EventRecord.BelongsTo.joins {event : EventRecord} {receipt : ReceiptRecord}
    (h : event.BelongsTo receipt) : event.joins receipt := by
  simp [EventRecord.joins, h.transaction, h.operation]

/-- An event of one receipt is found by no other receipt. -/
theorem EventRecord.BelongsTo.not_joins {event : EventRecord} {receipt other : ReceiptRecord}
    (h : event.BelongsTo receipt) (hother : receipt.place ≠ other.place) :
    event.joins other = false := by
  rw [Bool.eq_false_iff]
  intro hjoins
  simp only [EventRecord.joins, Bool.and_eq_true, beq_iff_eq] at hjoins
  exact hother (Prod.ext (h.transaction.symm.trans hjoins.1) (h.operation.symm.trans hjoins.2))

section

variable {rows : List (ReceiptRecord × List EventRecord)}

/-- Among the events of receipts for different operations, a receipt finds its own. -/
theorem filter_joins (hplaces : (rows.map (·.1.place)).Nodup)
    (hown : ∀ row ∈ rows, ∀ event ∈ row.2, event.BelongsTo row.1)
    {row : ReceiptRecord × List EventRecord} (hrow : row ∈ rows) :
    (rows.flatMap (·.2)).filter (·.joins row.1) = row.2 := by
  induction rows with
  | nil => cases hrow
  | cons first rest ih =>
    rw [List.map_cons, List.nodup_cons] at hplaces
    obtain ⟨hapart, hplaces⟩ := hplaces
    have hownRest : ∀ row ∈ rest, ∀ event ∈ row.2, event.BelongsTo row.1 :=
      fun row hrow => hown row (List.mem_cons_of_mem _ hrow)
    rw [List.flatMap_cons, List.filter_append]
    -- of the first receipt's events and the rest, one part is found whole and the other not at all
    rcases List.mem_cons.1 hrow with rfl | hrow
    · have hself : row.2.filter (·.joins row.1) = row.2 :=
        List.filter_eq_self.2 fun event hevent => (hown row (by simp) event hevent).joins
      have hnone : (rest.flatMap (·.2)).filter (·.joins row.1) = [] := by
        refine List.filter_eq_nil_iff.2 fun event hevent => ?_
        obtain ⟨other, hother, hevent⟩ := List.mem_flatMap.1 hevent
        have hne : other.1.place ≠ row.1.place := fun hsame =>
          hapart (hsame ▸ List.mem_map_of_mem (f := (·.1.place)) hother)
        rw [(hownRest other hother event hevent).not_joins hne]
        exact Bool.false_ne_true
      rw [hself, hnone, List.append_nil]
    · have hnone : first.2.filter (·.joins row.1) = [] := by
        refine List.filter_eq_nil_iff.2 fun event hevent => ?_
        have hne : first.1.place ≠ row.1.place := fun hsame =>
          hapart (hsame ▸ List.mem_map_of_mem (f := (·.1.place)) hrow)
        rw [(hown first (by simp) event hevent).not_joins hne]
        exact Bool.false_ne_true
      rw [hnone, List.nil_append, ih hplaces hownRest hrow]

/-- A store whose receipts are for different operations and whose events belong to them joins each
receipt with its own events. -/
theorem Store.Memory.joined_eq {m : Memory} (hreceipts : m.receipts = rows.map (·.1))
    (hevents : m.events = rows.flatMap (·.2)) (hplaces : (m.receipts.map (·.place)).Nodup)
    (hown : ∀ row ∈ rows, ∀ event ∈ row.2, event.BelongsTo row.1) : m.joined = rows := by
  rw [hreceipts, List.map_map] at hplaces
  rw [joined, hreceipts, hevents, List.map_map]
  conv_rhs => rw [← List.map_id rows]
  refine List.map_congr_left fun row hrow => ?_
  exact Prod.ext rfl (filter_joins hplaces hown hrow)

/-- Receipts that are new keep the operations of a store's receipts apart. -/
theorem Store.Memory.withReceipts_places {m : Memory} {received : List Receipt}
    (hrows : (freshReceipts m.hasReceipt received).map (·.records) = rows.map .ok)
    (hplaces : (m.receipts.map (·.place)).Nodup) :
    ((m.withReceipts rows).receipts.map (·.place)).Nodup := by
  induction received generalizing m rows with
  | nil =>
    rw [List.map_eq_nil_iff.1 hrows.symm, withReceipts_nil]
    exact hplaces
  | cons r rest ih =>
    rw [freshReceipts_cons] at hrows
    by_cases hknown : m.hasReceipt r.transaction r.operation
    · rw [if_pos hknown, known_or_isOf hknown] at hrows
      exact ih hrows hplaces
    · rw [if_neg hknown] at hrows
      obtain ⟨⟨record, events⟩, others, rfl, hrecord, hothers⟩ :=
        List.map_eq_cons_iff.1 hrows.symm
      have hrecord : r.records = .ok (record, events) := hrecord.symm
      obtain ⟨htransaction, hoperation⟩ := Receipt.records_place hrecord
      have hnext : ((m.withReceipts [(record, events)]).receipts.map (·.place)).Nodup := by
        refine nodup_concat hplaces fun receipt hreceipt hsame => hknown ?_
        rw [← htransaction, ← hoperation, hasReceipt_iff]
        exact List.mem_map.2 ⟨receipt, hreceipt, hsame⟩
      rw [← List.singleton_append, withReceipts_append]
      refine ih ?_ hnext
      rw [m.hasReceipt_withReceipt hrecord]
      exact hothers.symm

end

/-! ## The rows of a receipt's events -/

theorem Event.listed_of_mapM {events : List Event} {transaction : String} {told : List EventRecord}
    (h : events.mapM (Event.record transaction) = .ok told) :
    told = events.map (Event.listed transaction) := by
  induction events generalizing told with
  | nil =>
    cases h
    rfl
  | cons event rest ih =>
    rw [List.mapM_cons] at h
    obtain ⟨first, hfirst, h⟩ := Entry.of_bind h
    obtain ⟨others, hothers, h⟩ := Entry.of_bind h
    obtain ⟨number, hnumber, hfirst⟩ := Entry.of_bind hfirst
    obtain ⟨operation, hoperation, hfirst⟩ := Entry.of_bind hfirst
    cases h
    cases hfirst
    rw [List.map_cons, ← ih hothers, (Entry.int64_ok hnumber).1, (Entry.int32_ok hoperation).1]
    rfl

/-- A receipt is stored with its own numbers, and its events under its transaction, with the numbers
that they name. -/
theorem Receipt.records_numbers {r : Receipt} {row : ReceiptRecord × List EventRecord}
    (h : r.records = .ok row) :
    row.1.transaction = r.transaction ∧ row.1.blockNumber = r.blockNumber ∧
      row.1.operation = r.operation ∧ row.2 = r.events.map (Event.listed r.transaction) := by
  obtain ⟨number, hnumber, h⟩ := Entry.of_bind h
  obtain ⟨operation, hoperation, h⟩ := Entry.of_bind h
  obtain ⟨fee, -, h⟩ := Entry.of_bind h
  obtain ⟨told, htold, h⟩ := Entry.of_bind h
  cases h
  exact ⟨rfl, (Entry.int64_ok hnumber).1, (Entry.int32_ok hoperation).1, Event.listed_of_mapM htold⟩

/-- A receipt whose events name its block and its operation. -/
def Receipt.NumbersEvents (r : Receipt) : Prop :=
  ∀ event ∈ r.events, event.blockNumber = r.blockNumber ∧ event.operation = r.operation

/-- The stored events of a receipt belong to it if they named its numbers, and only then. -/
theorem Receipt.belongs_iff {r : Receipt} {row : ReceiptRecord × List EventRecord}
    (h : r.records = .ok row) : (∀ event ∈ row.2, event.BelongsTo row.1) ↔ r.NumbersEvents := by
  obtain ⟨htransaction, hnumber, hoperation, hevents⟩ := Receipt.records_numbers h
  rw [hevents]
  constructor
  · intro hown event hevent
    have hbelongs := hown _ (List.mem_map_of_mem hevent)
    have hblock : (event.blockNumber : Int) = row.1.blockNumber := hbelongs.blockNumber
    have hplace : (event.operation : Int) = row.1.operation := hbelongs.operation
    omega
  · intro hnumbers event hevent
    obtain ⟨told, htold, rfl⟩ := List.mem_map.1 hevent
    obtain ⟨hblock, hplace⟩ := hnumbers told htold
    refine ⟨htransaction.symm, ?_, ?_⟩
    · rw [hnumber, ← hblock]
      rfl
    · rw [hoperation, ← hplace]
      rfl

namespace Scan

variable {ω : Type} {env : Surroundings ω}

/-- The receipts of a transaction are asked for, completed and stored with their events: each event
with the transaction of its receipt and with the block and the operation that it names itself. So it
belongs to its receipt exactly if it names the numbers of the completed receipt, and where all events
do, the transaction and the operation of each stored receipt find its own events. -/
theorem events_keep_their_numbers (hstore : ∀ request world, (env.fault request world).1 = none)
    (tx : Transaction) {given : List Receipt} {s : Situation ω}
    (hreply : (env.node (.receipts tx.id) s.world).1 = .ok given)
    {stored : List (ReceiptRecord × List EventRecord)}
    (hreceipts : s.memory.receipts = stored.map (·.1))
    (hevents : s.memory.events = stored.flatMap (·.2)) :
    let received := given.map (completeReceipt tx)
    ∃ (world : ω) (rows : List (ReceiptRecord × List EventRecord)) (outcome : Except Error Nat),
      let after : Memory :=
        { s.memory with
          receipts := (stored ++ rows).map (·.1)
          events := (stored ++ rows).flatMap (·.2) }
      Procedure.run env.side (do recordReceipts (← askReceipts tx)) s =
          (outcome, ⟨world, after, s.cache⟩) ∧
        (∀ row ∈ rows, ∃ r ∈ received, r.records = .ok row ∧
          row.2 = r.events.map (Event.listed row.1.transaction) ∧
          ((∀ event ∈ row.2, event.BelongsTo row.1) ↔ r.NumbersEvents)) ∧
        ((s.memory.receipts.map (·.place)).Nodup →
          (∀ row ∈ stored, ∀ event ∈ row.2, event.BelongsTo row.1) →
            (∀ r ∈ received, r.NumbersEvents) →
              (∀ row ∈ stored ++ rows, ∀ event ∈ row.2, event.BelongsTo row.1) ∧
                after.joined = stored ++ rows) := by
  intro received
  obtain ⟨world, rows, hrows, hrun⟩ :=
    recordReceipts_run hstore received { s with world := (env.node (.receipts tx.id) s.world).2 }
  have hafter : s.memory.withReceipts rows = { s.memory with
      receipts := (stored ++ rows).map (·.1), events := (stored ++ rows).flatMap (·.2) } := by
    rw [Store.Memory.withReceipts, hreceipts, hevents, List.map_append, List.flatMap_append]
  have hfrom : ∀ row ∈ rows, ∃ r ∈ received, r.records = .ok row := by
    intro row hrow
    obtain ⟨r, hr, hrecords⟩ := List.mem_map.1 (hrows ▸ List.mem_map_of_mem (f := Except.ok) hrow)
    exact ⟨r, List.takeWhile_subset _ (mem_of_mem_freshReceipts hr), hrecords⟩
  refine ⟨world, rows, storingOutcome received rows.length, ?_, ?_, ?_⟩
  · show Program.run env.answer (((Program.ofExcept (env.node (.receipts tx.id) s.world).1).bind
      fun given => .done (given.map (completeReceipt tx))).bind recordReceipts) _ = _
    rw [hreply, ← hafter]
    exact hrun
  · intro row hrow
    obtain ⟨r, hr, hrecords⟩ := hfrom row hrow
    obtain ⟨htransaction, -, -, hlisted⟩ := Receipt.records_numbers hrecords
    exact ⟨r, hr, hrecords, htransaction ▸ hlisted, Receipt.belongs_iff hrecords⟩
  · intro hplaces hstored hnumbers
    have hown : ∀ row ∈ stored ++ rows, ∀ event ∈ row.2, event.BelongsTo row.1 := by
      intro row hrow
      rcases List.mem_append.1 hrow with hrow | hrow
      · exact hstored row hrow
      · obtain ⟨r, hr, hrecords⟩ := hfrom row hrow
        exact (Receipt.belongs_iff hrecords).2 (hnumbers r hr)
    refine ⟨hown, Store.Memory.joined_eq rfl rfl ?_ hown⟩
    have hkept := Store.Memory.withReceipts_places hrows hplaces
    rwa [hafter] at hkept

/-- An empty store after the receipts of a sale. -/
def soldWith (given : List Receipt) : Memory :=
  (Procedure.run (receipted given).side (do recordReceipts (← askReceipts selling))
    ⟨(), Memory.empty, Cache.empty⟩).2.memory

/-- Receipts of both operations, with an event that names the second and its block. -/
def numberedSale : List Receipt :=
  [{}, { operation := 1, events := [{ blockNumber := 2, operation := 1, name := "Transfer" }] }]

/-- The event is found for the second operation. -/
theorem numbered_event_joined :
    (soldWith numberedSale).joined.map (fun row => (row.1.operation, row.2.length)) =
        [(0, 0), (1, 1)] ∧
      ∀ row ∈ (soldWith numberedSale).joined, ∀ event ∈ row.2, event.BelongsTo row.1 := by
  refine ⟨by decide +kernel, ?_⟩
  have hnumbers : ∀ r ∈ numberedSale.map (completeReceipt selling), r.NumbersEvents := by
    unfold Receipt.NumbersEvents
    decide
  have hstore : ∀ request world, ((receipted numberedSale).fault request world).1 = none :=
    fun _ _ => rfl
  have hreceipts : Memory.empty.receipts =
      ([] : List (ReceiptRecord × List EventRecord)).map (·.1) := rfl
  obtain ⟨world, rows, outcome, hrun, -, hjoined⟩ := events_keep_their_numbers hstore selling
    (s := ⟨(), Memory.empty, Cache.empty⟩) rfl hreceipts rfl
  obtain ⟨hown, hjoined⟩ := hjoined List.nodup_nil (fun _ h => nomatch h) hnumbers
  have hafter : soldWith numberedSale = _ := congrArg (·.2.memory) hrun
  rw [hafter, hjoined]
  exact hown

/-- An event that leaves out its numbers, in the receipt of the second operation of a transaction in
the second block, is stored with block and operation zero, and found for the first operation. -/
theorem bare_event_joins_other_receipt :
    (soldWith bothSold).receipts.map (fun r => (r.transaction, r.blockNumber, r.operation)) =
        [("sale", 2, 0), ("sale", 2, 1)] ∧
      (bothSold.map (·.events.length) = [0, 1]) ∧
      (soldWith bothSold).events.map (fun e => (e.transaction, e.blockNumber, e.operation)) =
        [("sale", 0, 0)] ∧
      (soldWith bothSold).joined.map (fun row => (row.1.operation, row.2.length)) =
        [(0, 1), (1, 0)] := by
  decide +kernel

end Scan

end ChainIndex
