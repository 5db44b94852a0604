import ChainIndex.Proofs.Calls
import ChainIndex.Scan.Recording
import Mathlib.Algebra.Group.Int.Defs
import Mathlib.Algebra.Group.Nat.Defs

/-!
# Numbers in their columns

A block, a transaction and a receipt each have a list of numbers for columns of 32 and of 64 bits,
the numbers of its events after those of a receipt. If all of them fit, the record holds every one
as it is; otherwise the first that does not fit is reported, and nothing is written. The type of the
leading operation of a transaction is the one number that need not be there: where the transaction
shows none of 64 bits, its column holds -1.
-/

namespace ChainIndex

/-- A number on its way into a column. -/
structure NumberCell where
  what : Quantity
  /-- The width of the column. -/
  bits : Nat
  value : Int

namespace NumberCell

/-- The number fits the column. -/
def Fits (c : NumberCell) : Prop := -2 ^ (c.bits - 1) ≤ c.value ∧ c.value < 2 ^ (c.bits - 1)

instance (c : NumberCell) : Decidable c.Fits :=
  inferInstanceAs (Decidable (_ ∧ _))

/-- The error of a number that does not fit. -/
def error (c : NumberCell) : Error := .malformed (.outOfRange c.what c.value)

/-- The error of the first number that does not fit its column. -/
def Refused (cells : List NumberCell) (e : Error) : Prop :=
  ∃ before c after, cells = before ++ c :: after ∧ (∀ b ∈ before, b.Fits) ∧ ¬c.Fits ∧ e = c.error

/-- A record, if the numbers fit. -/
def settle {α : Type} : List NumberCell → α → Except Error α
  | [], record => .ok record
  | c :: rest, record => if c.Fits then settle rest record else .error c.error

section

variable {α β : Type} {cells cells' : List NumberCell} {record : α} {e : Error}

theorem settle_eq_ok_iff {r : α} :
    settle cells record = .ok r ↔ (∀ c ∈ cells, c.Fits) ∧ r = record := by
  induction cells with
  | nil => simp [settle, eq_comm]
  | cons c cells ih =>
    rw [settle, List.forall_mem_cons]
    split
    · rename_i hfits
      rw [ih, and_iff_right hfits]
    · rename_i hunfit
      exact iff_of_false nofun fun h => hunfit h.1.1

theorem settle_eq_error_iff : settle cells record = .error e ↔ Refused cells e := by
  induction cells with
  | nil => simp [settle, Refused]
  | cons c cells ih =>
    rw [settle]
    split
    · -- the number that is refused is one of the others
      rename_i hfits
      rw [ih]
      constructor
      · rintro ⟨before, c', after, rfl, hbefore, h⟩
        exact ⟨c :: before, c', after, rfl, List.forall_mem_cons.2 ⟨hfits, hbefore⟩, h⟩
      · rintro ⟨before, c', after, hcells, hbefore, hunfit, he⟩
        cases before with
        | nil =>
          obtain ⟨rfl, -⟩ := List.cons.inj hcells
          exact absurd hfits hunfit
        | cons b before =>
          obtain ⟨-, hrest⟩ := List.cons.inj hcells
          exact ⟨before, c', after, hrest, (List.forall_mem_cons.1 hbefore).2, hunfit, he⟩
    · -- it is this one, and whether the others fit is not looked at
      rename_i hunfit
      constructor
      · intro h
        exact ⟨[], c, cells, rfl, by simp, hunfit, (Except.error.inj h).symm⟩
      · rintro ⟨before, c', after, hcells, hbefore, -, rfl⟩
        cases before with
        | nil =>
          obtain ⟨rfl, -⟩ := List.cons.inj hcells
          rfl
        | cons b before =>
          obtain ⟨rfl, -⟩ := List.cons.inj hcells
          exact absurd (List.forall_mem_cons.1 hbefore).1 hunfit

/-- The numbers of two parts are checked one part after the other. -/
theorem settle_bind {x : Except Error α} {f : α → Except Error β} {made : β}
    (hx : x = settle cells record) (hf : f record = settle cells' made) :
    (x >>= f) = settle (cells ++ cells') made := by
  subst hx
  induction cells with
  | nil => exact hf
  | cons c cells ih =>
    rw [settle, List.cons_append, settle]
    split
    · exact ih
    · rfl

theorem settle_map {x : Except Error α} (g : α → β) (hx : x = settle cells record) :
    (x >>= fun made => pure (g made)) = settle cells (g record) := by
  have hnone : (pure (g record) : Except Error β) = settle [] (g record) := rfl
  have hrest := settle_bind (f := fun made => pure (g made)) hx hnone
  rwa [List.append_nil] at hrest

end

end NumberCell

open NumberCell (Refused settle settle_bind settle_map settle_eq_ok_iff settle_eq_error_iff)

theorem Quantity.int64_eq_settle (what : Quantity) (n : Int) :
    what.int64 n = settle [⟨what, 64, n⟩] n := by
  have hfits : (int64Min ≤ n ∧ n ≤ int64Max) ↔ NumberCell.Fits ⟨what, 64, n⟩ := by
    simp only [NumberCell.Fits, int64Min, int64Max]
    omega
  rw [Quantity.int64, settle, settle]
  simp only [hfits]
  rfl

theorem Quantity.int32_eq_settle (what : Quantity) (n : Int) :
    what.int32 n = settle [⟨what, 32, n⟩] n := by
  have hfits : (int32Min ≤ n ∧ n ≤ int32Max) ↔ NumberCell.Fits ⟨what, 32, n⟩ := by
    simp only [NumberCell.Fits, int32Min, int32Max]
    omega
  rw [Quantity.int32, settle, settle]
  simp only [hfits]
  rfl

namespace Quantity

variable {β : Type} {what : Quantity} {n : Int} {cells : List NumberCell}
  {f : Int → Except Error β} {made : β}

/-- A number of 64 bits is checked before those that come after it. -/
theorem int64_bind (h : f n = settle cells made) :
    (what.int64 n >>= f) = settle (⟨what, 64, n⟩ :: cells) made :=
  settle_bind (int64_eq_settle what n) h

/-- A number of 32 bits is checked before those that come after it. -/
theorem int32_bind (h : f n = settle cells made) :
    (what.int32 n >>= f) = settle (⟨what, 32, n⟩ :: cells) made :=
  settle_bind (int32_eq_settle what n) h

end Quantity

open Quantity (int32_bind int64_bind)

/-! ## Blocks -/

namespace Block

/-- The numbers of a block. -/
def cells (block : Block) : List NumberCell :=
  [⟨.blockNumber, 64, block.number⟩, ⟨.blockFee, 64, block.fee⟩,
    ⟨.transactionCount, 32, block.transactions.length⟩]

/-- The record of a block with its numbers as they are. -/
def exactRecord (block : Block) : BlockRecord where
  number := block.number
  previous := block.previous
  timestamp := block.timestamp
  fee := block.fee
  miner := block.miner
  merkleRoot := block.merkleRoot
  nextSecretHash := block.nextSecretHash
  id := ""
  reward := 0
  transactionCount := block.transactions.length

theorem record_eq_settle (block : Block) : block.record = settle block.cells block.exactRecord :=
  int64_bind (int64_bind (int32_bind rfl))

end Block

/-! ## Transactions -/

namespace Transaction

/-- The numbers of a transaction. -/
def cells (tx : Transaction) : List NumberCell :=
  [⟨.blockNumber, 64, tx.blockNumber⟩, ⟨.referenceBlock, 64, tx.refBlockNumber⟩,
    ⟨.referencePrefix, 64, tx.refBlockPrefix⟩, ⟨.operationCount, 32, tx.operations.length⟩,
    ⟨.transactionIndex, 32, tx.indexInBlock⟩, ⟨.operationType, 32, tx.leadingType.getD (-1)⟩]

/-- The record of a transaction with its numbers as they are. -/
def exactRecord (tx : Transaction) : TransactionRecord where
  id := tx.id
  blockNumber := tx.blockNumber
  refBlockNumber := tx.refBlockNumber
  refBlockPrefix := tx.refBlockPrefix
  expiration := tx.expiration
  operationCount := tx.operations.length
  indexInBlock := tx.indexInBlock
  leadingType := tx.leadingType.getD (-1)

theorem record_eq_settle (tx : Transaction) : tx.record = settle tx.cells tx.exactRecord :=
  int64_bind (int64_bind (int64_bind (int32_bind (int32_bind (int32_bind rfl)))))

/-- The type that a transaction shows first is an integer of 64 bits at the head of its first
operation. -/
theorem leadingType_eq_some_iff {tx : Transaction} {code : Int} :
    tx.leadingType = some code ↔
      ∃ items rest, tx.operations = .arr (.int code :: items) :: rest ∧
        -2 ^ 63 ≤ code ∧ code < 2 ^ 63 := by
  have hword : ∀ v : Json,
      v.int64? = some code ↔ v = .int code ∧ -2 ^ 63 ≤ code ∧ code < 2 ^ 63 := by
    intro v
    cases v with
    | int n =>
      rw [Json.int64?, Option.ite_none_right_eq_some, Option.some_inj, Json.int.injEq, and_comm]
      refine and_congr_right fun hn => ?_
      subst hn
      simp only [int64Min, int64Max]
      omega
    | null | bool | float | str | arr | obj => exact iff_of_false nofun nofun
  unfold leadingType
  constructor
  · intro h
    obtain ⟨first, hfirst, h⟩ := Option.bind_eq_some_iff.1 h
    obtain ⟨items, hitems, h⟩ := Option.bind_eq_some_iff.1 h
    obtain ⟨v, hv, hcode⟩ := Option.bind_eq_some_iff.1 h
    obtain ⟨rfl, hfits⟩ := (hword v).1 hcode
    obtain ⟨rest, hoperations⟩ := List.head?_eq_some_iff.1 hfirst
    obtain ⟨items', rfl⟩ := List.head?_eq_some_iff.1 hv
    cases first with
    | arr =>
      cases hitems
      exact ⟨items', rest, hoperations, hfits⟩
    | null | bool | int | float | str | obj => cases hitems
  · rintro ⟨items, rest, hoperations, hfits⟩
    rw [hoperations]
    exact (hword _).2 ⟨rfl, hfits⟩

end Transaction

/-! ## Receipts -/

/-- The numbers of an event. -/
def Event.cells (event : Event) : List NumberCell :=
  [⟨.eventBlock, 64, event.blockNumber⟩, ⟨.eventOperation, 32, event.operation⟩]

/-- The record of an event with its numbers as they are. -/
def Event.exactRecord (transaction : String) (event : Event) : EventRecord where
  transaction
  blockNumber := event.blockNumber
  operation := event.operation
  caller := event.caller
  contract := event.contract
  argument := event.argument
  name := event.name

theorem Event.record_eq_settle (transaction : String) (event : Event) :
    event.record transaction = settle event.cells (event.exactRecord transaction) :=
  int64_bind (int32_bind rfl)

/-- The numbers of some events are checked event by event. -/
theorem Event.records_eq_settle (transaction : String) (events : List Event) :
    events.mapM (Event.record transaction) =
      settle (events.flatMap Event.cells) (events.map (Event.exactRecord transaction)) := by
  induction events with
  | nil => rfl
  | cons event events ih =>
    rw [List.mapM_cons]
    refine settle_bind (Event.record_eq_settle transaction event) ?_
    exact settle_map (event.exactRecord transaction :: ·) ih

namespace Receipt

/-- The numbers of a receipt and then those of its events. -/
def cells (receipt : Receipt) : List NumberCell :=
  [⟨.receiptBlock, 64, receipt.blockNumber⟩, ⟨.receiptOperation, 32, receipt.operation⟩,
    ⟨.receiptFee, 64, receipt.fee⟩] ++ receipt.events.flatMap Event.cells

/-- The record of a receipt with its numbers as they are. -/
def exactRecord (receipt : Receipt) : ReceiptRecord where
  transaction := receipt.transaction
  blockNumber := receipt.blockNumber
  operation := receipt.operation
  apiResult := receipt.apiResult
  succeeded := receipt.succeeded
  fee := receipt.fee
  invoker := receipt.invoker
  registered := receipt.registered
  events := (Json.arr (receipt.events.map Event.json)).text
  withdrawals := (Json.arr receipt.withdrawals).text
  balanceChanges := (Json.arr receipt.balanceChanges).text
  addressDeposits := (Json.arr receipt.addressDeposits).text
  contractDeposits := (Json.arr receipt.contractDeposits).text
  transferFees := (Json.arr receipt.transferFees).text

/-- The records of a receipt and its events with their numbers as they are. -/
def exactRecords (receipt : Receipt) : ReceiptRecord × List EventRecord :=
  (receipt.exactRecord, receipt.events.map (Event.exactRecord receipt.transaction))

theorem records_eq_settle (receipt : Receipt) :
    receipt.records = settle receipt.cells receipt.exactRecords := by
  have hevents := settle_map (receipt.exactRecord, ·)
    (Event.records_eq_settle receipt.transaction receipt.events)
  exact int64_bind (int32_bind (int64_bind hevents))

end Receipt

/-! ## What is written -/

namespace Scan

open Program (Answering)

variable {e : Error}

/-- A block that is refused is not even looked for. -/
theorem recordBlock_of_refused {block : Block} (h : Refused block.cells e) :
    recordBlock block = .fail e := by
  rw [recordBlock, block.record_eq_settle, settle_eq_error_iff.2 h]
  rfl

/-- A transaction that is refused is only looked for. -/
theorem recordTransaction_of_refused {tx : Transaction} (h : Refused tx.cells e) :
    recordTransaction tx =
      (store (.transaction tx.id)).bind fun found =>
        if found.isSome then .done false else .fail e := by
  rw [recordTransaction, tx.record_eq_settle, settle_eq_error_iff.2 h]
  rfl

/-- A receipt that is refused ends the storing of receipts: those before it are stored, and nothing
is asked of the store for it or for those after it. -/
theorem recordReceipts_of_refused {receipt : Receipt} (h : Refused receipt.cells e)
    (before after : List Receipt) :
    recordReceipts (before ++ receipt :: after) =
      (recordReceipts before).bind fun _ => .fail e := by
  induction before with
  | nil =>
    show (Program.ofExcept receipt.records).bind _ = _
    rw [receipt.records_eq_settle, settle_eq_error_iff.2 h]
    rfl
  | cons first before ih =>
    -- the first receipt is stored before any of the others is looked at
    rw [List.cons_append, recordReceipts, recordReceipts, ih]
    simp only [Program.bind_eq, Program.bind_assoc]
    refine congrArg _ (funext fun made => congrArg _ (funext fun known => ?_))
    split
    · rfl
    · simp only [Program.bind_assoc]
      rfl

/-- Numbers are stored exactly or refused. A block, a transaction and a receipt with its events have
a record exactly if every number fits its column, and then every column holds its number; otherwise
the first number that does not fit is the error. A block that is refused asks the store for nothing;
a transaction, only whether it is stored; and storing receipts ends before the first that is
refused. The type of the leading operation is the integer of 64 bits that the transaction shows
first; where it shows none, -1 takes its place. -/
theorem numbers_are_stored_exactly_or_refused :
    (∀ block : Block,
      (∀ r, block.record = .ok r ↔ (∀ c ∈ block.cells, c.Fits) ∧ r = block.exactRecord) ∧
      ∀ e, (block.record = .error e ↔ Refused block.cells e) ∧
        (Refused block.cells e → recordBlock block = .fail e)) ∧
    (∀ tx : Transaction,
      (∀ code, tx.leadingType = some code ↔
        ∃ items rest, tx.operations = .arr (.int code :: items) :: rest ∧
          -2 ^ 63 ≤ code ∧ code < 2 ^ 63) ∧
      (∀ r, tx.record = .ok r ↔ (∀ c ∈ tx.cells, c.Fits) ∧ r = tx.exactRecord) ∧
      ∀ e, (tx.record = .error e ↔ Refused tx.cells e) ∧
        (Refused tx.cells e → ∀ (σ : Type) (answer : Answering interface σ) (s : σ),
          let reply := (answer (.store (.transaction tx.id)) s).1
          Program.calls answer (recordTransaction tx) s =
            [⟨.store (.transaction tx.id), reply⟩] ∧
          (Program.run answer (recordTransaction tx) s).1 =
            match reply with
            | .ok (some _) => .ok false
            | .ok none => .error e
            | .error failure => .error failure)) ∧
    ∀ receipt : Receipt,
      (∀ r, receipt.records = .ok r ↔ (∀ c ∈ receipt.cells, c.Fits) ∧ r = receipt.exactRecords) ∧
      ∀ e, (receipt.records = .error e ↔ Refused receipt.cells e) ∧
        (Refused receipt.cells e → ∀ before after,
          recordReceipts (before ++ receipt :: after) =
            (recordReceipts before).bind fun _ => .fail e) := by
  refine ⟨fun block => ⟨fun r => ?_, fun e => ⟨?_, recordBlock_of_refused⟩⟩,
    fun tx => ⟨fun code => Transaction.leadingType_eq_some_iff, fun r => ?_, fun e => ⟨?_, ?_⟩⟩,
    fun receipt => ⟨fun r => ?_, fun e => ⟨?_, recordReceipts_of_refused⟩⟩⟩
  · rw [block.record_eq_settle, settle_eq_ok_iff]
  · rw [block.record_eq_settle, settle_eq_error_iff]
  · rw [tx.record_eq_settle, settle_eq_ok_iff]
  · rw [tx.record_eq_settle, settle_eq_error_iff]
  · intro h σ answer s
    rw [recordTransaction_of_refused h]
    show _ :: Program.calls answer ((Program.ofExcept _).bind _) _ = _ ∧
      (Program.run answer ((Program.ofExcept _).bind _) _).1 = _
    rcases answer (.store (.transaction tx.id)) s with ⟨failure | found | found, s'⟩
    all_goals exact ⟨rfl, rfl⟩
  · rw [receipt.records_eq_settle, settle_eq_ok_iff]
  · rw [receipt.records_eq_settle, settle_eq_error_iff]

/-- An event of which only the number of the operation is too large, by one: its receipt is refused,
and the receipt after it is not looked for. -/
theorem oversized_event_is_refused :
    Refused (Receipt.cells { events := [{}, { operation := 2 ^ 31 }, { blockNumber := 2 ^ 63 }] })
      (.malformed (.outOfRange .eventOperation (2 ^ 31))) ∧
    recordReceipts
        [{}, { events := [{}, { operation := 2 ^ 31 }, { blockNumber := 2 ^ 63 }] }, {}] =
      (recordReceipts [{}]).bind fun _ =>
        .fail (.malformed (.outOfRange .eventOperation (2 ^ 31))) := by
  have h : Refused
      (Receipt.cells { events := [{}, { operation := 2 ^ 31 }, { blockNumber := 2 ^ 63 }] })
      (.malformed (.outOfRange .eventOperation (2 ^ 31))) :=
    ⟨[⟨.receiptBlock, 64, 0⟩, ⟨.receiptOperation, 32, 0⟩, ⟨.receiptFee, 64, 0⟩,
      ⟨.eventBlock, 64, 0⟩, ⟨.eventOperation, 32, 0⟩, ⟨.eventBlock, 64, 0⟩],
      ⟨.eventOperation, 32, 2 ^ 31⟩, [⟨.eventBlock, 64, 2 ^ 63⟩, ⟨.eventOperation, 32, 0⟩],
      rfl, by decide, by decide, rfl⟩
  exact ⟨h, ((numbers_are_stored_exactly_or_refused.2.2 _).2 _).2 h [{}] [{}]⟩

/-- The type of an operation that is too large for a signed word of 64 bits is stored as if the
transaction showed none. -/
theorem oversized_type_is_stored_as_none :
    Transaction.record { operations := [.arr [.int (2 ^ 63), .obj []]] } =
      .ok { id := "", blockNumber := 0, refBlockNumber := 0, refBlockPrefix := 0, expiration := "",
            operationCount := 1, indexInBlock := 0, leadingType := -1 } ∧
    ¬NumberCell.Fits ⟨.operationType, 32, 2 ^ 63⟩ :=
  ⟨rfl, by decide⟩

end Scan

end ChainIndex
