import ChainIndex.Proofs.History

/-!
# Entries

What a block leads to in a store is a list of entries, each of them one guarded write: `enter` makes
an entry unless it is there, and `enterAll` makes one entry after another until one fails.
`blockEntries` is the list for a block. It depends on the receipts of the block's transactions and
on nothing else that a node says, and it comes in the order in which a scanner writes.
-/

namespace ChainIndex

open Scan (Placed WideTable.name WideTable.columnsOf WideTable.index WideTable.row
  WideTable.position placeId locate completeReceipt)
open Store (Memory)

/-- An entry that a block leads to. -/
inductive Entry where
  /-- Data that cannot be stored: the scan stops at it. -/
  | refusal (e : Error)
  | block (block : Block)
  /-- The id that a block reports for the block before it. -/
  | previousId (block : Block)
  | transaction (tx : Transaction)
  /-- The wide table of an operation type, founded by a payload of the type. -/
  | table (typeName : String) (sample : Payload)
  /-- The row of an operation in the table of its type. -/
  | row (op : Placed)
  | operation (op : Placed)
  | account (account : AccountRecord)
  | receipt (receipt : Receipt)
  /-- The record of a token that an operation registers. -/
  | token (seen : Observation) (registration : Registration)
  /-- What an event tells of its token. -/
  | event (seen : Observation) (event : Event)

namespace Entry

/-- The transfer of a `Transfer` event with the position of its operation, if both make sense. -/
def transfer? (seen : Observation) (told : Event) : Option (Transfer × Int) :=
  match Transfer.ofArgument told.argument, Quantity.operationIndex.int32 seen.index with
  | .ok transfer, .ok position => some (transfer, position)
  | _, _ => none

/-- Put the transfer of an event on record, unless its operation has one. -/
def enterTransfer (seen : Observation) (told : Event) (m : Memory) : Except Error Memory :=
  match transfer? seen told with
  | none => .ok m
  | some (transfer, position) =>
    if (m.transfer? seen.transaction position).isSome then .ok m
    else
      match Observer.transferRecord seen told transfer position with
      | .ok record => m.addTransfer record
      | .error _ => .ok m

/-- The table of an operation, or the one that the operation would found. -/
def tableFor (m : Memory) (op : Placed) : Store.Table :=
  (m.table? (WideTable.name op.typeName)).getD
    ⟨WideTable.columnsOf op.payload, some (WideTable.index (WideTable.name op.typeName)), []⟩

/-- Make an entry, unless it is there. -/
def enter : Entry → Memory → Except Error Memory
  | .refusal e, _ => .error e
  | .block b, m => do
    let record ← b.record
    if (m.block? record.number).isSome then .ok m else m.addBlock record
  | .previousId b, m =>
    if b.number ≤ 1 ∨ b.previous = "" then .ok m
    else do
      let number ← Quantity.blockNumber.int64 (b.number - 1 : Nat)
      match m.block? number with
      | none => .ok m
      | some previous =>
        if previous.id = "" then .ok (m.setBlockId number b.previous) else .ok m
  | .transaction tx, m =>
    if (m.transaction? tx.id).isSome then .ok m
    else do
      let record ← tx.record
      m.addTransaction record
  | .table typeName sample, m =>
    .ok (m.addTable (WideTable.name typeName) (WideTable.columnsOf sample)
      (WideTable.index (WideTable.name typeName)))
  | .row op, m =>
    if (tableFor m op).rows.any
        (Store.Memory.isAt op.transaction (WideTable.position op.index)) then
      .ok m
    else
      (m.addTable (WideTable.name op.typeName) (WideTable.columnsOf op.payload)
        (WideTable.index (WideTable.name op.typeName))).addRow (WideTable.name op.typeName)
          (WideTable.row (tableFor m op).columns op.payload)
  | .operation op, m =>
    if (m.operation? (placeId op.blockNumber op.transaction op.index)).isSome then .ok m
    else do
      let record ← op.record
      m.addOperation record
  | .account holder, m =>
    if (m.account? holder.owner).isSome then .ok m else m.addAccount holder
  | .receipt outcome, m => do
    let (record, events) ← outcome.records
    if m.hasReceipt record.transaction record.operation then .ok m
    else m.addReceipt record events
  | .token seen registration, m =>
    if (m.token? registration.contract).isSome then .ok m
    else
      match Observer.newToken seen registration with
      | .ok record => m.addToken record
      | .error _ => .ok m
  | .event seen told, m =>
    match m.token? told.contract with
    | none => .ok m
    | some known =>
      if told.name = "Inited" then .ok (m.setToken { known with state := some "common" })
      else if told.name = "Transfer" then enterTransfer seen told m
      else .ok m

/-- Make entries one after another until one fails. -/
def enterAll : List Entry → Memory → Except Error Unit × Memory
  | [], m => (.ok (), m)
  | entry :: rest, m =>
    match entry.enter m with
    | .ok m => enterAll rest m
    | .error e => (.error e, m)

/-- Whether an entry belongs to the part of a store that the chain alone decides. -/
def isIndexed : Entry → Bool
  | .token _ _ | .event _ _ => false
  | _ => true

/-! ## The entries of a block -/

/-- The account that an operation creates. -/
def ofAccountCreation (seen : Observation) : List Entry :=
  if seen.typeName ≠ "account_create_operation" then []
  else
    match seen.payload.text? "name", seen.payload.text? "payer" with
    | some name, some owner => [.account ⟨owner, name⟩]
    | _, _ => []

/-- The token that an operation registers. -/
def ofRegistration (seen : Observation) : List Entry :=
  if seen.typeName = "contract_register_operation" ∧ seen.completed.isSome then
    match Registration.ofPayload seen.payload with
    | .ok r => if r.declaresToken then [.token seen r] else []
    | .error _ => []
  else []

/-- The events of an operation whose code ran through. -/
def ofEvents (seen : Observation) : List Entry :=
  match seen.completed with
  | none => []
  | some outcome => outcome.events.map (.event seen)

/-- The entries that the observers make for an operation. -/
def ofObservation (seen : Observation) : List Entry :=
  ofAccountCreation seen ++ (ofRegistration seen ++ ofEvents seen)

/-- An operation at its place in a transaction, with the payload that is stored for it. -/
def placed (block : Block) (tx : Transaction) (index : Nat) (typeCode : Int) (p : Payload) :
    Placed :=
  Placed.ofDecoded block.number tx.id tx.indexInBlock index typeCode
    (locate p block.number tx.id index)

/-- What the observers are shown of an operation. -/
def seenAt (block : Block) (tx : Transaction) (receipts : List Receipt) (index : Nat)
    (typeCode : Int) (p : Payload) : Observation where
  block := block
  transaction := tx.id
  index := index
  typeCode := typeCode
  typeName := (placed block tx index typeCode p).typeName
  payload := locate p block.number tx.id index
  receipt := receipts[index]?

/-- The entries of a raw operation. -/
def ofOperation (block : Block) (tx : Transaction) (receipts : List Receipt) (index : Nat)
    (raw : Json) : List Entry :=
  match Operation.decode raw with
  | .error e => [.refusal e]
  | .ok (typeCode, p) =>
    let op := placed block tx index typeCode p
    [.table op.typeName op.payload, .row op, .operation op] ++
      ofObservation (seenAt block tx receipts index typeCode p)

/-- The entries of operations from a position on. No operation is entered past the greatest
position that fits its column. -/
def ofOperations (block : Block) (tx : Transaction) (receipts : List Receipt) :
    Nat → List Json → List Entry
  | _, [] => []
  | index, raw :: rest =>
    ofOperation block tx receipts index raw ++
      if (index : Int) ≤ int32Max then ofOperations block tx receipts (index + 1) rest else []

/-- The entries of a transaction whose receipts are known. -/
def ofReceived (block : Block) (tx : Transaction) (receipts : List Receipt) : List Entry :=
  .transaction tx ::
    (ofOperations block tx receipts 0 tx.operations ++ receipts.map .receipt)

/-- The entries of a transaction, by what the node says of receipts. -/
def ofTransaction (receipts : String → Except Error (List Receipt)) (block : Block)
    (tx : Transaction) : List Entry :=
  if tx.callsContract then
    match receipts tx.id with
    | .ok received => ofReceived block tx (received.map (completeReceipt tx))
    | .error e => [.refusal e]
  else ofReceived block tx []

/-- The entries of a block, by what the node says of receipts. -/
def ofBlock (receipts : String → Except Error (List Receipt)) (block : Block) : List Entry :=
  .block block :: .previousId block :: block.transactions.flatMap (ofTransaction receipts block)

/-! ## Laws -/

@[simp] theorem ok_bind {α β : Type} (a : α) (f : α → Except Error β) :
    ((.ok a : Except Error α) >>= f) = f a := rfl

@[simp] theorem error_bind {α β : Type} (e : Error) (f : α → Except Error β) :
    ((.error e : Except Error α) >>= f) = .error e := rfl

@[simp] theorem enterAll_nil (m : Memory) : enterAll [] m = (.ok (), m) := rfl

theorem of_enterAll_cons {entry : Entry} {es : List Entry} {m m' : Memory}
    (h : enterAll (entry :: es) m = (.ok (), m')) :
    ∃ m₁, entry.enter m = .ok m₁ ∧ enterAll es m₁ = (.ok (), m') := by
  rw [enterAll] at h
  cases hentry : entry.enter m with
  | error e =>
    rw [hentry] at h
    cases h
  | ok m₁ =>
    rw [hentry] at h
    exact ⟨m₁, rfl, h⟩

/-- Entries are made in two parts where the first part succeeds. -/
theorem enterAll_append {es es' : List Entry} {m m' : Memory} (h : enterAll es m = (.ok (), m')) :
    enterAll (es ++ es') m = enterAll es' m' := by
  induction es generalizing m with
  | nil => simp_all
  | cons entry rest ih =>
    obtain ⟨m₁, hentry, h⟩ := of_enterAll_cons h
    rw [List.cons_append, enterAll, hentry]
    exact ih h

/-- A failure of the first part is the failure of the whole. -/
theorem enterAll_append_of_error {es es' : List Entry} {m m' : Memory} {e : Error}
    (h : enterAll es m = (.error e, m')) : enterAll (es ++ es') m = (.error e, m') := by
  induction es generalizing m with
  | nil => simp at h
  | cons entry rest ih =>
    simp only [List.cons_append, enterAll] at h ⊢
    cases hentry : entry.enter m with
    | ok m₁ => exact ih (by simpa [hentry] using h)
    | error e' => simpa [hentry] using h

theorem enterAll_one {entry : Entry} {m m' : Memory} (h : entry.enter m = .ok m') :
    enterAll [entry] m = (.ok (), m') := by
  simp [enterAll, h]

/-! ## Views -/

theorem bind_map {α : Type} {x : Except Error α} {f g : α → Except Error Memory}
    {p : Memory → Memory} (h : ∀ a, f a = (g a).map p) : (x >>= f) = (x >>= g).map p := by
  cases x with
  | error e => rfl
  | ok a => exact h a

theorem ite_map {c : Prop} [Decidable c] {x y : Except Error Memory} {m : Memory}
    {p : Memory → Memory} (h : x = y.map p) :
    (if c then .ok (p m) else x) = (if c then .ok m else y).map p := by
  split
  · rfl
  · exact h

/-- An entry that the chain decides comes out the same in a view as in the store. -/
theorem enter_view (transfers : List TransferRecord → List TransferRecord)
    (tokens : List TokenRecord → List TokenRecord) {m : Memory} (hfailing : m.failing = [])
    {entry : Entry} (hentry : entry.isIndexed) :
    entry.enter (m.view transfers tokens) =
      (entry.enter m).map (Memory.view transfers tokens) := by
  cases entry with
  | refusal e => rfl
  | block b =>
    apply bind_map (p := Memory.view transfers tokens)
    intro record
    exact ite_map (Memory.view_addBlock m record)
  | previousId b =>
    apply ite_map (p := Memory.view transfers tokens)
    apply bind_map (p := Memory.view transfers tokens)
    intro number
    show (match m.block? number with | none => _ | some previous => _) = _
    cases m.block? number with
    | none => rfl
    | some previous =>
      simp only
      split <;> rfl
  | transaction tx =>
    apply ite_map (p := Memory.view transfers tokens)
    exact bind_map (p := Memory.view transfers tokens) fun record =>
      Memory.view_addTransaction m record
  | table typeName sample => exact congrArg Except.ok (Memory.view_addTable m _ _ _)
  | row op =>
    apply ite_map (p := Memory.view transfers tokens)
    rw [Memory.view_addTable]
    refine Memory.view_addRow ?_ _ _
    rw [Memory.addTable_failing, hfailing]
  | operation op =>
    apply ite_map (p := Memory.view transfers tokens)
    exact bind_map (p := Memory.view transfers tokens) fun record =>
      Memory.view_addOperation m record
  | account holder => exact ite_map (Memory.view_addAccount m holder)
  | receipt outcome =>
    apply bind_map (p := Memory.view transfers tokens)
    intro (record, events)
    exact ite_map (Memory.view_addReceipt m record events)
  | token seen registration => cases hentry
  | event seen told => cases hentry

/-- An entry that is made in a store is made in its history. -/
theorem enter_history {m m' : Memory} (hfailing : m.failing = []) {entry : Entry}
    (hentry : entry.isIndexed) (h : entry.enter m = .ok m') :
    entry.enter m.history = .ok m'.history := by
  rw [Memory.history_eq_view, enter_view _ _ hfailing hentry, h]
  rfl

end Entry

end ChainIndex
