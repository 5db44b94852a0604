import ChainIndex.Proofs.Course

/-!
# The order of entries

The entries of a chain come in an order in which each of them stands on others: a transaction on its
block, an operation on its row, its transaction and its block. The row of an operation is followed
at once by the operation itself. What has been made of the entries of a chain is a beginning of
them, so that what an entry stands on has been made with it, and the last entry is the only one that
can be a row without its operation.
-/

namespace ChainIndex

open Scan (Placed placeId locate)

/-! ## Operations in chain order -/

/-- The operations of a transaction from a position on, as far as they can be read, at their places
in the chain. -/
def Transaction.placedFrom (tx : Transaction) (index : Nat) (raws : List Json) : List Placed :=
  (raws.zipIdx index).filterMap fun (raw, index) =>
    match Operation.decode raw with
    | .ok (typeCode, p) =>
      some (Placed.ofDecoded tx.blockNumber tx.id tx.indexInBlock index typeCode
        (locate p tx.blockNumber tx.id index))
    | .error _ => none

/-- The operations of a transaction. -/
def Transaction.placed (tx : Transaction) : List Placed := tx.placedFrom 0 tx.operations

namespace Entry

/-- The operation of an entry. -/
def operation? : Entry → Option Placed
  | .operation op => some op
  | _ => none

/-! ## Grounds -/

/-- What an entry stands on is among these. -/
def Grounded (before : List Entry) : Entry → Prop
  | .transaction tx => ∃ b, .block b ∈ before ∧ b.number = tx.blockNumber
  | .operation op =>
    .row op ∈ before ∧ (∃ tx, .transaction tx ∈ before ∧ tx.id = op.transaction) ∧
      ∃ b, .block b ∈ before ∧ b.number = op.blockNumber
  | _ => True

/-- Each entry of a list stands on what comes before it. -/
def GroundedAfter (before : List Entry) : List Entry → Prop
  | [] => True
  | entry :: rest => entry.Grounded before ∧ GroundedAfter (before ++ [entry]) rest

/-- Every row of a list is followed by its operation. -/
def RowsFollowed : List Entry → Prop
  | [] => True
  | .row op :: rest => rest.head? = some (.operation op) ∧ RowsFollowed rest
  | _ :: rest => RowsFollowed rest

section

variable {before before' es es' : List Entry} {entry : Entry}

theorem Grounded.mono (h : entry.Grounded before) (hmore : before ⊆ before') :
    entry.Grounded before' := by
  cases entry with
  | transaction tx =>
    obtain ⟨b, hb, hnumber⟩ := h
    exact ⟨b, hmore hb, hnumber⟩
  | operation op =>
    obtain ⟨hrow, ⟨tx, htx, hid⟩, b, hb, hnumber⟩ := h
    exact ⟨hmore hrow, ⟨tx, hmore htx, hid⟩, b, hmore hb, hnumber⟩
  | _ => trivial

theorem groundedAfter_append :
    GroundedAfter before (es ++ es') ↔
      GroundedAfter before es ∧ GroundedAfter (before ++ es) es' := by
  induction es generalizing before with
  | nil => simp [GroundedAfter]
  | cons entry rest ih => simp [GroundedAfter, ih, and_assoc]

/-- In the end, an entry stands on what is there. -/
theorem GroundedAfter.of_mem (h : GroundedAfter before es) (hentry : entry ∈ es) :
    entry.Grounded (before ++ es) := by
  obtain ⟨es₁, es₂, rfl⟩ := List.append_of_mem hentry
  obtain ⟨-, hground, -⟩ := groundedAfter_append.1 h
  exact hground.mono (by simp)

theorem groundedAfter_flatMap {α : Type} {l : List α} {f : α → List Entry}
    (h : ∀ a ∈ l, ∀ before', before ⊆ before' → GroundedAfter before' (f a)) :
    GroundedAfter before (l.flatMap f) := by
  induction l generalizing before with
  | nil => trivial
  | cons a rest ih =>
    rw [List.flatMap_cons]
    have hfirst := h a (by simp) before fun _ => id
    refine groundedAfter_append.2 ⟨hfirst, ih fun b hb before' hmore => ?_⟩
    exact h b (by simp [hb]) before' fun _ he => hmore (List.mem_append_left _ he)

theorem RowsFollowed.append (h : RowsFollowed es) (h' : RowsFollowed es') :
    RowsFollowed (es ++ es') := by
  induction es with
  | nil => exact h'
  | cons entry rest ih =>
    cases entry with
    | row op =>
      obtain ⟨hnext, hrest⟩ := h
      have hhead : (rest ++ es').head? = some (.operation op) := by
        rw [List.head?_append, hnext]
        rfl
      exact ⟨hhead, ih hrest⟩
    | _ => exact ih h

theorem rowsFollowed_flatMap {α : Type} {l : List α} {f : α → List Entry}
    (h : ∀ a ∈ l, RowsFollowed (f a)) : RowsFollowed (l.flatMap f) := by
  induction l with
  | nil => trivial
  | cons a rest ih =>
    rw [List.flatMap_cons]
    exact (h a (by simp)).append (ih fun b hb => h b (by simp [hb]))

/-- In a beginning of such a list, only the last entry can be a row without its operation. -/
theorem RowsFollowed.of_prefix (h : RowsFollowed (es ++ es')) {op : Placed}
    (hrow : .row op ∈ es) (hoperation : .operation op ∉ es) :
    es.getLast? = some (.row op) ∧ es'.head? = some (.operation op) := by
  induction es with
  | nil => cases hrow
  | cons entry rest ih =>
    have hrest : RowsFollowed (rest ++ es') := by
      cases entry with
      | row op' => exact h.2
      | _ => exact h
    by_cases hlater : .row op ∈ rest
    · obtain ⟨hlast, hnext⟩ := ih hrest hlater fun hmem => hoperation (by simp [hmem])
      exact ⟨by rw [List.getLast?_cons, hlast]; rfl, hnext⟩
    · have hentry : entry = .row op := by
        rcases List.mem_cons.1 hrow with heq | hmem
        · exact heq.symm
        · exact absurd hmem hlater
      subst hentry
      obtain ⟨hnext, -⟩ := h
      cases rest with
      | nil => exact ⟨rfl, hnext⟩
      | cons first rest =>
        cases hnext
        exact absurd (by simp) hoperation

end

/-! ## The entries of a block -/

section

variable {b : Block} {tx : Transaction} {received : List Receipt}
  {receipts : String → Except Error (List Receipt)} {before : List Entry}

/-- What the chain decides of a raw operation. -/
theorem indexed_ofOperation (b : Block) (tx : Transaction) (received : List Receipt) (index : Nat)
    (raw : Json) :
    (ofOperation b tx received index raw).filter isIndexed =
      match Operation.decode raw with
      | .error e => [.refusal e]
      | .ok (typeCode, p) =>
        .table (placed b tx index typeCode p).typeName (placed b tx index typeCode p).payload ::
          .row (placed b tx index typeCode p) :: .operation (placed b tx index typeCode p) ::
            ofAccountCreation (seenAt b tx [] index typeCode p) := by
  unfold ofOperation
  cases Operation.decode raw with
  | error e => rfl
  | ok decoded =>
    obtain ⟨typeCode, p⟩ := decoded
    have haccount : (ofAccountCreation (seenAt b tx received index typeCode p)).filter isIndexed =
        ofAccountCreation (seenAt b tx [] index typeCode p) := by
      have hsame : ofAccountCreation (seenAt b tx received index typeCode p) =
          ofAccountCreation (seenAt b tx [] index typeCode p) := rfl
      rw [hsame]
      unfold ofAccountCreation
      split
      · rfl
      · split <;> rfl
    have htoken :
        (ofRegistration (seenAt b tx received index typeCode p)).filter isIndexed = [] := by
      unfold ofRegistration
      split
      · split
        · split <;> rfl
        · rfl
      · rfl
    have hevents : (ofEvents (seenAt b tx received index typeCode p)).filter isIndexed = [] := by
      unfold ofEvents
      split
      · rfl
      · simp [List.filter_map, isIndexed, Function.comp_def]
    simp only [ofObservation, List.filter_append, haccount, htoken, hevents, List.append_nil]
    rfl

theorem mem_ofAccountCreation {seen : Observation} {entry : Entry}
    (h : entry ∈ ofAccountCreation seen) : ∃ holder, entry = .account holder := by
  unfold ofAccountCreation at h
  split at h
  · cases h
  · split at h
    · exact ⟨_, List.mem_singleton.1 h⟩
    · cases h

/-- Entries that stand on nothing may come anywhere. -/
theorem groundedAfter_of_forall {es : List Entry} (h : ∀ entry ∈ es, entry.Grounded []) :
    GroundedAfter before es := by
  induction es generalizing before with
  | nil => trivial
  | cons entry rest ih =>
    exact ⟨(h entry (by simp)).mono (by simp), ih fun e he => h e (by simp [he])⟩

theorem rowsFollowed_of_forall {es : List Entry} (h : ∀ op, .row op ∉ es) : RowsFollowed es := by
  induction es with
  | nil => trivial
  | cons entry rest ih =>
    have hrest : RowsFollowed rest := ih fun op hmem => h op (by simp [hmem])
    cases entry with
    | row op => exact absurd (by simp) (h op)
    | _ => exact hrest

theorem groundedAfter_ofOperation (hb : .block b ∈ before) (htx : .transaction tx ∈ before)
    (index : Nat) (raw : Json) :
    GroundedAfter before ((ofOperation b tx received index raw).filter isIndexed) := by
  rw [indexed_ofOperation]
  cases Operation.decode raw with
  | error e => exact ⟨trivial, trivial⟩
  | ok decoded =>
    refine ⟨trivial, trivial, ⟨by simp, ⟨tx, by simp [htx], rfl⟩, b, by simp [hb], rfl⟩, ?_⟩
    apply groundedAfter_of_forall
    intro entry he
    obtain ⟨holder, rfl⟩ := mem_ofAccountCreation he
    trivial

theorem groundedAfter_ofOperations (hb : .block b ∈ before) (htx : .transaction tx ∈ before)
    (index : Nat) (raws : List Json) :
    GroundedAfter before ((ofOperations b tx received index raws).filter isIndexed) := by
  induction raws generalizing before index with
  | nil => trivial
  | cons raw rest ih =>
    rw [ofOperations, List.filter_append]
    refine groundedAfter_append.2 ⟨groundedAfter_ofOperation hb htx index raw, ?_⟩
    split
    · exact ih (List.mem_append_left _ hb) (List.mem_append_left _ htx) (index + 1)
    · trivial

theorem groundedAfter_ofTransaction (hb : .block b ∈ before) (hnumber : tx.blockNumber = b.number) :
    GroundedAfter before ((ofTransaction receipts b tx).filter isIndexed) := by
  have hreceived : ∀ received,
      GroundedAfter before ((ofReceived b tx received).filter isIndexed) := by
    intro received
    rw [ofReceived, List.filter_cons_of_pos rfl, List.filter_append]
    refine ⟨⟨b, hb, hnumber.symm⟩, groundedAfter_append.2
      ⟨groundedAfter_ofOperations (by simp [hb]) (by simp) 0 tx.operations, ?_⟩⟩
    apply groundedAfter_of_forall
    intro entry he
    obtain ⟨outcome, -, rfl⟩ := List.mem_map.1 (List.mem_filter.1 he).1
    trivial
  unfold ofTransaction
  split
  · split
    · exact hreceived _
    · exact ⟨trivial, trivial⟩
  · exact hreceived _

/-- The entries of a block stand on each other. -/
theorem groundedAfter_ofBlock (hplaced : ∀ tx ∈ b.transactions, tx.blockNumber = b.number) :
    GroundedAfter before ((ofBlock receipts b).filter isIndexed) := by
  rw [ofBlock, List.filter_cons_of_pos rfl, List.filter_cons_of_pos rfl, List.filter_flatMap]
  refine ⟨trivial, trivial, groundedAfter_flatMap fun tx htx before' hmore => ?_⟩
  exact groundedAfter_ofTransaction (hmore (by simp)) (hplaced tx htx)

theorem rowsFollowed_ofOperations (index : Nat) (raws : List Json) :
    RowsFollowed ((ofOperations b tx received index raws).filter isIndexed) := by
  induction raws generalizing index with
  | nil => trivial
  | cons raw rest ih =>
    rw [ofOperations, List.filter_append]
    apply RowsFollowed.append
    · rw [indexed_ofOperation]
      cases Operation.decode raw with
      | error e => trivial
      | ok decoded =>
        refine ⟨rfl, rowsFollowed_of_forall fun op hmem => ?_⟩
        rcases List.mem_cons.1 hmem with hfirst | hmem
        · cases hfirst
        · obtain ⟨holder, hholder⟩ := mem_ofAccountCreation hmem
          cases hholder
    · split
      · exact ih (index + 1)
      · trivial

theorem rowsFollowed_ofTransaction :
    RowsFollowed ((ofTransaction receipts b tx).filter isIndexed) := by
  have hreceived : ∀ received, RowsFollowed ((ofReceived b tx received).filter isIndexed) := by
    intro received
    rw [ofReceived, List.filter_cons_of_pos rfl, List.filter_append]
    apply RowsFollowed.append (rowsFollowed_ofOperations 0 tx.operations)
    apply rowsFollowed_of_forall
    intro op hmem
    obtain ⟨outcome, -, houtcome⟩ := List.mem_map.1 (List.mem_filter.1 hmem).1
    cases houtcome
  unfold ofTransaction
  split
  · split
    · exact hreceived _
    · trivial
  · exact hreceived _

theorem rowsFollowed_ofBlock : RowsFollowed ((ofBlock receipts b).filter isIndexed) := by
  rw [ofBlock, List.filter_cons_of_pos rfl, List.filter_cons_of_pos rfl, List.filter_flatMap]
  exact rowsFollowed_flatMap fun tx _ => rowsFollowed_ofTransaction

end

/-! ## The operations of entries -/

/-- An entry that can be made somewhere. -/
def Enterable (entry : Entry) : Prop := ∃ m m', m.WellFormed ∧ entry.enter m = .ok m'

/-- The entries of a list have these operations, as far as they can be made. -/
structure Tells (es : List Entry) (ops : List Placed) : Prop where
  part : ∀ made, made <+: es → (∀ entry ∈ made.dropLast, entry.Enterable) →
    made.filterMap operation? <+: ops
  whole : (∀ entry ∈ es, entry.Enterable) → es.filterMap operation? = ops

section

variable {b : Block} {tx : Transaction} {received : List Receipt}
  {receipts : String → Except Error (List Receipt)} {es es' : List Entry} {ops ops' : List Placed}

theorem tells_self (es : List Entry) : Tells es (es.filterMap operation?) where
  part _ hmade _ := hmade.filterMap _
  whole _ := rfl

theorem Tells.append (h : Tells es ops) (h' : Tells es' ops') :
    Tells (es ++ es') (ops ++ ops') where
  part made hmade henter := by
    rcases List.prefix_or_prefix_of_prefix hmade (List.prefix_append es es') with hshort | hlong
    · exact (h.part made hshort henter).trans (List.prefix_append ops ops')
    · obtain ⟨more, rfl⟩ := hlong
      by_cases hnil : more = []
      · subst hnil
        rw [List.append_nil] at henter ⊢
        exact (h.part es (List.prefix_refl es) henter).trans (List.prefix_append ops ops')
      · rw [List.dropLast_append_of_ne_nil hnil] at henter
        rw [List.filterMap_append, h.whole fun entry he => henter entry (List.mem_append_left _ he)]
        apply (List.prefix_append_right_inj ops).2
        refine h'.part more ((List.prefix_append_right_inj es).1 hmade) fun entry he => ?_
        exact henter entry (List.mem_append_right _ he)
  whole henter := by
    rw [List.filterMap_append, h.whole fun entry he => henter entry (List.mem_append_left _ he),
      h'.whole fun entry he => henter entry (List.mem_append_right _ he)]

theorem tells_flatMap {α : Type} {l : List α} {f : α → List Entry} {g : α → List Placed}
    (h : ∀ a ∈ l, Tells (f a) (g a)) : Tells (l.flatMap f) (l.flatMap g) := by
  induction l with
  | nil => exact tells_self []
  | cons a rest ih =>
    rw [List.flatMap_cons, List.flatMap_cons]
    exact (h a (by simp)).append (ih fun b hb => h b (by simp [hb]))

/-- An operation past the last position that fits its column cannot be made. -/
theorem not_enterable_of_position {index : Nat} (hindex : ¬(index : Int) ≤ int32Max) {raw : Json} :
    ∃ entry ∈ (ofOperation b tx received index raw).filter isIndexed, ¬entry.Enterable := by
  rw [indexed_ofOperation]
  cases Operation.decode raw with
  | error e =>
    refine ⟨.refusal e, by simp, ?_⟩
    rintro ⟨m, m', -, h⟩
    cases h
  | ok decoded =>
    refine ⟨.operation (placed b tx index decoded.1 decoded.2), by simp, ?_⟩
    rintro ⟨m, m', hm, h⟩
    exact hindex (enter_operation_position hm h)

/-- The operation of a raw operation that can be read. -/
theorem operations_ofOperation (hnumber : tx.blockNumber = b.number) (index : Nat) (raw : Json) :
    ((ofOperation b tx received index raw).filter isIndexed).filterMap operation? =
      tx.placedFrom index [raw] := by
  rw [indexed_ofOperation]
  unfold Transaction.placedFrom
  cases hdecode : Operation.decode raw with
  | error e => simp [hdecode, operation?]
  | ok decoded =>
    obtain ⟨typeCode, p⟩ := decoded
    have haccount : (ofAccountCreation (seenAt b tx [] index typeCode p)).filterMap operation? =
        [] := by
      rw [List.filterMap_eq_nil_iff]
      intro entry he
      obtain ⟨holder, rfl⟩ := mem_ofAccountCreation he
      rfl
    simp only [List.zipIdx_cons, List.zipIdx_nil, List.filterMap_cons, List.filterMap_nil,
      operation?, hdecode, haccount, placed, hnumber]

theorem placedFrom_cons (tx : Transaction) (index : Nat) (raw : Json) (rest : List Json) :
    tx.placedFrom index (raw :: rest) =
      tx.placedFrom index [raw] ++ tx.placedFrom (index + 1) rest := by
  simp only [Transaction.placedFrom, List.zipIdx_cons, List.zipIdx_nil, ← List.filterMap_append,
    List.singleton_append]

theorem tells_ofOperations (hnumber : tx.blockNumber = b.number) (index : Nat)
    (raws : List Json) :
    Tells ((ofOperations b tx received index raws).filter isIndexed)
      (tx.placedFrom index raws) := by
  induction raws generalizing index with
  | nil => exact tells_self []
  | cons raw rest ih =>
    have hfirst := tells_self ((ofOperation b tx received index raw).filter isIndexed)
    rw [operations_ofOperation hnumber] at hfirst
    rw [ofOperations, List.filter_append, placedFrom_cons]
    split
    · exact hfirst.append (ih (index + 1))
    · -- what comes after this operation is not entered, nor is the operation
      rename_i hindex
      rw [List.filter_nil, List.append_nil]
      refine ⟨fun made hmade henter => ?_, fun henter => ?_⟩
      · exact (hfirst.part made hmade henter).trans (List.prefix_append _ _)
      · obtain ⟨entry, he, hnot⟩ := not_enterable_of_position hindex
        exact absurd (henter entry he) hnot

theorem tells_ofReceived (hnumber : tx.blockNumber = b.number) (received : List Receipt) :
    Tells ((ofReceived b tx received).filter isIndexed) tx.placed := by
  have hreceipts : ((received.map Entry.receipt).filter isIndexed).filterMap operation? = [] := by
    rw [List.filterMap_eq_nil_iff]
    intro entry he
    obtain ⟨outcome, -, rfl⟩ := List.mem_map.1 (List.mem_filter.1 he).1
    rfl
  have htail := tells_self ((received.map Entry.receipt).filter isIndexed)
  rw [hreceipts] at htail
  have hfirst : Tells [.transaction tx] [] := tells_self _
  have hoperations : Tells ((ofOperations b tx received 0 tx.operations).filter isIndexed)
      tx.placed := tells_ofOperations hnumber 0 tx.operations
  rw [ofReceived, List.filter_cons_of_pos rfl, List.filter_append]
  simpa using hfirst.append (hoperations.append htail)

/-- The operations of a block's entries are those of its transactions. -/
theorem tells_ofBlock (hplaced : ∀ tx ∈ b.transactions, tx.blockNumber = b.number)
    {given : String → List Receipt} :
    Tells ((ofBlock (fun id => .ok (given id)) b).filter isIndexed)
      (b.transactions.flatMap Transaction.placed) := by
  have htransactions : Tells
      (b.transactions.flatMap fun tx =>
        (ofTransaction (fun id => .ok (given id)) b tx).filter isIndexed)
      (b.transactions.flatMap Transaction.placed) := by
    apply tells_flatMap
    intro tx htx
    unfold ofTransaction
    split
    · exact tells_ofReceived (hplaced tx htx) _
    · exact tells_ofReceived (hplaced tx htx) _
  have hfirst : Tells [.block b, .previousId b] [] := tells_self _
  rw [ofBlock, List.filter_cons_of_pos rfl, List.filter_cons_of_pos rfl, List.filter_flatMap]
  exact hfirst.append htransactions

end

end Entry

/-! ## Places -/

/-- The id under which an operation is stored. -/
def Scan.Placed.id (op : Placed) : String := placeId op.blockNumber op.transaction op.index

/-- An operation of a transaction is at a place in it. -/
theorem of_mem_placedFrom {tx : Transaction} {index : Nat} {raws : List Json} {op : Placed}
    (h : op ∈ tx.placedFrom index raws) :
    op.blockNumber = tx.blockNumber ∧ op.transaction = tx.id ∧ index ≤ op.index ∧
      op.index < index + raws.length := by
  obtain ⟨⟨raw, position⟩, hmem, hop⟩ := List.mem_filterMap.1 h
  obtain ⟨hle, hlt, -⟩ := List.mem_zipIdx hmem
  cases hdecode : Operation.decode raw with
  | error e => simp [hdecode] at hop
  | ok decoded =>
    simp only [hdecode, Option.some.injEq] at hop
    subst hop
    exact ⟨rfl, rfl, hle, hlt⟩

/-- An operation of a transaction has been read where it lies there. -/
theorem decode_of_mem_placed {tx : Transaction} {op : Placed} (h : op ∈ tx.placed) :
    ∃ raw code p, tx.operations[op.index]? = some raw ∧ Operation.decode raw = .ok (code, p) ∧
      op = Placed.ofDecoded tx.blockNumber tx.id tx.indexInBlock op.index code
        (locate p tx.blockNumber tx.id op.index) := by
  obtain ⟨⟨raw, position⟩, hmem, hop⟩ := List.mem_filterMap.1 h
  have hraw : tx.operations[position]? = some raw := List.mem_zipIdx_iff_getElem?.1 hmem
  cases hdecode : Operation.decode raw with
  | error e => simp [hdecode] at hop
  | ok decoded =>
    simp only [hdecode, Option.some.injEq] at hop
    subst hop
    exact ⟨raw, decoded.1, decoded.2, hraw, hdecode, rfl⟩

/-- The operations of a transaction are at different places. -/
theorem pairwise_placedFrom (tx : Transaction) (index : Nat) (raws : List Json) :
    (tx.placedFrom index raws).Pairwise fun op op' => op.id ≠ op'.id := by
  induction raws generalizing index with
  | nil => exact List.Pairwise.nil
  | cons raw rest ih =>
    rw [Entry.placedFrom_cons]
    refine List.pairwise_append.2 ⟨?_, ih (index + 1), fun op hop op' hop' hid => ?_⟩
    · unfold Transaction.placedFrom
      cases hdecode : Operation.decode raw <;> simp [hdecode]
    · obtain ⟨-, -, -, hlt⟩ := of_mem_placedFrom hop
      obtain ⟨-, -, hle, -⟩ := of_mem_placedFrom hop'
      obtain ⟨-, -, hindex⟩ := Entry.place_of_placeId hid
      simp only [List.length_singleton] at hlt
      omega

namespace Scan

/-! ## The order of a chain -/

/-- The transactions of the blocks up to a number, as they are asked for. -/
def transactionsThrough (blocks : Nat → Block) : Nat → List Transaction
  | 0 => []
  | number + 1 =>
    transactionsThrough blocks number ++ (asked (blocks (number + 1)) (number + 1)).transactions

/-- Their operations. -/
def operationsThrough (blocks : Nat → Block) (number : Nat) : List Placed :=
  (transactionsThrough blocks number).flatMap Transaction.placed

/-- The transactions of a block that is asked for know its number. -/
theorem blockNumber_of_mem_asked {b : Block} {number : Nat} {tx : Transaction}
    (h : tx ∈ (asked b number).transactions) : tx.blockNumber = number := by
  obtain ⟨index, hindex, rfl⟩ := List.mem_mapIdx.1 h
  rfl

section

variable (chain : Chain) (k : Nat)

theorem groundedAfter_through : Entry.GroundedAfter [] (chain.through k) := by
  induction k with
  | zero => trivial
  | succ k ih =>
    exact Entry.groundedAfter_append.2
      ⟨ih, Entry.groundedAfter_ofBlock fun _ => blockNumber_of_mem_asked⟩

theorem rowsFollowed_through : Entry.RowsFollowed (chain.through k) := by
  induction k with
  | zero => trivial
  | succ k ih => exact ih.append Entry.rowsFollowed_ofBlock

/-- The entries of a chain have its operations, in chain order. -/
theorem tells_through : Entry.Tells (chain.through k) (operationsThrough chain.block k) := by
  induction k with
  | zero => exact Entry.tells_self []
  | succ k ih =>
    have hblock : Entry.Tells (chain.entries (k + 1))
        ((asked (chain.block (k + 1)) (k + 1)).transactions.flatMap Transaction.placed) :=
      Entry.tells_ofBlock fun _ => blockNumber_of_mem_asked
    have hall := ih.append hblock
    rw [operationsThrough, ← List.flatMap_append] at hall
    exact hall

end

/-- Where transactions have different ids, operations have different places. -/
theorem nodup_operationsThrough {blocks : Nat → Block} {k : Nat}
    (h : ((transactionsThrough blocks k).map (·.id)).Nodup) :
    ((operationsThrough blocks k).map (·.id)).Nodup := by
  refine List.pairwise_map.2 (List.pairwise_flatMap.2
    ⟨fun tx _ => pairwise_placedFrom tx 0 tx.operations, (List.pairwise_map.1 h).imp ?_⟩)
  intro tx tx' hne op hop op' hop' hid
  obtain ⟨-, htransaction, -⟩ := of_mem_placedFrom hop
  obtain ⟨-, htransaction', -⟩ := of_mem_placedFrom hop'
  obtain ⟨-, hsame, -⟩ := Entry.place_of_placeId hid
  exact hne (htransaction.symm.trans (hsame.trans htransaction'))

end Scan

end ChainIndex
