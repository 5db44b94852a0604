import ChainIndex.Proofs.ExactColumns
import ChainIndex.Proofs.HashChain
import ChainIndex.Proofs.Itinerary
import ChainIndex.Proofs.LosslessText
import ChainIndex.Proofs.ReceiptPlaces

/-!
# Numbers of blocks

A node can give a block under any number, and the number that a scan has asked for is the one that
counts: it is the number of the block, its transactions, its operations, and the tokens and
transfers that they give rise to. Receipts and their events are stored with the numbers that the
node gives for them. Whatever has the number of a block, that number fits its column.
-/

namespace ChainIndex

/-- A receipt that a node gives is stored under the number that it brings, or else under that of the
block being scanned, and its events under the numbers that they bring. -/
structure Receipt.StoredAs (given : Receipt) (number : Nat) (record : ReceiptRecord)
    (events : List EventRecord) : Prop where
  number : record.blockNumber = if given.blockNumber = 0 then number else given.blockNumber
  number_le : record.blockNumber ≤ int64Max
  events_le : ∀ event ∈ events, event.blockNumber ≤ int64Max
  events : events.map (·.blockNumber) = given.events.map fun event => (event.blockNumber : Int)

theorem Receipt.storedAs {tx : Transaction} {given : Receipt} {record : ReceiptRecord}
    {events : List EventRecord}
    (h : (Scan.completeReceipt tx given).records = .ok (record, events)) :
    given.StoredAs tx.blockNumber record events := by
  rw [Receipt.records_eq_settle] at h
  obtain ⟨hfits, hmade⟩ := NumberCell.settle_eq_ok_iff.1 h
  cases hmade
  have hle : ∀ {what : Quantity} {n : Int},
      ⟨what, 64, n⟩ ∈ (Scan.completeReceipt tx given).cells → n ≤ int64Max := fun hmem =>
    Int.le_of_lt_add_one (hfits _ hmem).2
  refine ⟨?_, hle (List.mem_append_left _ List.mem_cons_self), ?_, List.map_map⟩
  · show ((if given.blockNumber = 0 then tx.blockNumber else given.blockNumber : Nat) : Int) = _
    split <;> rfl
  · intro event hevent
    obtain ⟨told, htold, rfl⟩ := List.mem_map.1 hevent
    exact hle (List.mem_append_right _ (List.mem_flatMap.2 ⟨told, htold, List.mem_cons_self⟩))

namespace Scan

open Program (Call Justified Obeys justified_nil justified_of_forall)
open Store (Memory)

variable {ω : Type} {number : Nat} {tx : Transaction} {b : Block}

/-! ## Requests that number something -/

/-- The number that a request enters as that of the block being scanned: for the block itself, a
transaction, an operation, a token or a transfer. -/
def Request.number? : Request → Option Int
  | .store (.addBlock record) => some record.number
  | .store (.addTransaction record) => some record.blockNumber
  | .store (.addOperation record) => some record.blockNumber
  | .store (.addToken record) => some record.blockNumber
  | .store (.addTransfer record) => some record.blockNumber
  | _ => none

/-- Whether a request adds a row to a wide table. -/
def Request.isRowWrite : Request → Bool
  | .store (.addRow _ _) => true
  | _ => false

/-- A row has the number of its block where its table has a column for it: as an integer in an
integer column, in decimal in a text column. -/
def RowNumbered (number : Nat) (row : Row) : Prop :=
  ∀ cell, ("block_num", cell) ∈ row →
    cell = .bigInt (some number) ∨ cell = .text (some (Json.ofNat number).text)

/-- Whether a request can come up after the block of a number was asked for: no other block is asked
for, and nothing of the block is entered under another number. -/
structure Request.AtBlock (number : Nat) (request : Request) : Prop where
  block : request.block? = none
  scanned : ∀ n, request.number? = some n → n = number ∧ n ≤ int64Max
  row : ∀ table row, request = .store (.addRow table row) →
    (number : Int) ≤ int64Max ∧ RowNumbered number row

theorem Request.atBlock_of_none {request : Request} (hblock : request.block? = none)
    (hnumber : request.number? = none) (hrow : request.isRowWrite = false) :
    request.AtBlock number := by
  refine ⟨hblock, fun n hn => ?_, ?_⟩
  · rw [hnumber] at hn
    cases hn
  · rintro table row rfl
    cases hrow

theorem Request.atBlock_of_isQuestion {request : Request} (h : request.isQuestion) :
    request.AtBlock number := by
  cases request with
  | node request => cases request <;> first | exact atBlock_of_none rfl rfl rfl | cases h
  | store | cache | cancelled => cases h

/-- Observers that keep neither new tokens nor transfers enter nothing under a number. -/
theorem Request.atBlock_of_observes {kept : List Derived} {request : Request}
    (hkept : Derived.newTokens ∉ kept ∧ Derived.transfers ∉ kept) (h : request.observes kept) :
    request.AtBlock number := by
  cases request with
  | store request =>
    cases request with
    | addToken => exact absurd (List.contains_iff_mem.1 h) hkept.1
    | addTransfer => exact absurd (List.contains_iff_mem.1 h) hkept.2
    | _ => first | exact atBlock_of_none rfl rfl rfl | cases h
  | node request => cases request <;> first | exact atBlock_of_none rfl rfl rfl | cases h
  | cache => exact atBlock_of_none rfl rfl rfl
  | cancelled => cases h

/-- A request for a record that has the number, in the range of its column. -/
theorem Request.atBlock_of_number {request : Request} {n : Int} (hblock : request.block? = none)
    (hrequest : request.number? = some n) (hn : n = number ∧ (number : Int) ≤ int64Max) :
    request.AtBlock number := by
  refine ⟨hblock, fun n' hn' => ?_, ?_⟩
  · cases hrequest.symm.trans hn'
    exact ⟨hn.1, hn.1 ▸ hn.2⟩
  · rintro table row rfl
    cases hrequest

/-! ## Observers -/

section

variable (caller : String) (seen : Observation)

/-- A token keeps its number, whatever its contract says about itself. -/
theorem describeToken_returns (contract : String) (token : TokenRecord) :
    (Observer.describeToken caller contract token).Returns
      (·.blockNumber = token.blockNumber) := by
  refine Program.returns_bind _ fun answered => ?_
  cases answered
  all_goals
    show Program.Returns _ ((Observer.Question.supply caller contract).attempt.bind _)
    refine Program.returns_bind _ fun supply => ?_
    cases supply <;> exact rfl

theorem newToken_number {r : Registration} {token : TokenRecord}
    (h : Observer.newToken seen r = .ok token) :
    token.blockNumber = seen.block.number ∧ (seen.block.number : Int) ≤ int64Max := by
  obtain ⟨_, hnumber, h⟩ := Entry.of_bind h
  cases h
  obtain ⟨hn, -, hmax⟩ := Entry.int64_ok hnumber
  exact ⟨hn, hmax⟩

theorem recordRegistration_atBlock :
    Heeds (·.AtBlock seen.block.number) (Observer.recordRegistration caller seen) := by
  unfold Observer.recordRegistration
  split
  · refine heeds_decode fun r => ?_
    split
    · refine heeds_store (Request.atBlock_of_none rfl rfl rfl) fun found => ?_
      cases found with
      | some found => exact .done _
      | none =>
        cases htoken : Observer.newToken seen r with
        | error e => exact .fail e
        | ok token =>
          show Heeds _ ((Observer.describeToken caller token.id token).bind fun described =>
            store (.addToken described))
          refine Obeys.bind_returns ((describeToken_heeds caller token.id token).widen
            fun _ => Request.atBlock_of_isQuestion) (describeToken_returns caller _ token)
              fun described hdescribed => store_heeds ?_
          have hnumber := newToken_number seen htoken
          exact Request.atBlock_of_number rfl rfl (hdescribed ▸ hnumber)
    · exact .done _
  · exact .done _

theorem transferRecord_number {told : Event} {transfer : Transfer} {operation : Int}
    {record : TransferRecord}
    (h : Observer.transferRecord seen told transfer operation = .ok record) :
    record.blockNumber = seen.block.number ∧ (seen.block.number : Int) ≤ int64Max := by
  unfold Observer.transferRecord at h
  split at h
  · obtain ⟨_, -, h⟩ := Entry.of_bind h
    obtain ⟨_, hnumber, h⟩ := Entry.of_bind h
    cases h
    obtain ⟨hn, -, hmax⟩ := Entry.int64_ok hnumber
    exact ⟨hn, hmax⟩
  · cases h

theorem followTransfer_atBlock (told : Event) :
    Heeds (·.AtBlock seen.block.number) (Observer.followTransfer caller seen told) := by
  refine heeds_decode fun transfer => ?_
  refine heeds_decode fun operation => ?_
  have hparties : Heeds (·.AtBlock seen.block.number)
      (refreshParties caller told.contract transfer) :=
    (refreshParties_heeds caller told.contract transfer).widen
      fun _ => Request.atBlock_of_observes (by decide)
  refine heeds_store (Request.atBlock_of_none rfl rfl rfl) fun recorded => ?_
  cases recorded with
  | some recorded => exact hparties
  | none =>
    cases hrecord : Observer.transferRecord seen told transfer operation with
    | error e => exact .fail e
    | ok record =>
      have hnumber := transferRecord_number seen hrecord
      exact heeds_store (Request.atBlock_of_number rfl rfl hnumber) fun _ => hparties

theorem followEvents_atBlock (events : List Event) :
    Heeds (·.AtBlock seen.block.number) (Observer.followEvents caller seen events) := by
  induction events with
  | nil => exact .done _
  | cons told rest ih =>
    refine Obeys.bind ((isKnown_heeds told.contract).widen
      fun _ => Request.atBlock_of_observes (by decide)) fun known => ?_
    cases known with
    | false => exact ih
    | true =>
      refine Obeys.bind (passOver_heeds ?_) fun _ => ih
      unfold Observer.followEvent
      split
      · exact (followSetUp_heeds caller told.contract).widen
          fun _ => Request.atBlock_of_observes (by decide)
      split
      · exact followTransfer_atBlock caller seen told
      · exact .done _

theorem followReceipt_atBlock :
    Heeds (·.AtBlock seen.block.number) (Observer.followReceipt caller seen) := by
  unfold Observer.followReceipt
  split
  · exact .done _
  · exact Obeys.bind (followEvents_atBlock caller seen _) fun _ =>
      (refreshDeposits_heeds _).widen fun _ => Request.atBlock_of_observes (by decide)

/-- What observers enter has the number of the block that they are shown. -/
theorem standard_atBlock (hseen : seen.block.number = number) :
    Heeds (·.AtBlock number) (Observer.applyAll (Observer.standard caller) seen) := by
  subst hseen
  apply applyAll_heeds
  unfold Observer.standard
  simp only [List.forall_mem_cons]
  have hother : ∀ {kept : List Derived} {p : Procedure Unit},
      Derived.newTokens ∉ kept ∧ Derived.transfers ∉ kept → Heeds (·.observes kept) p →
        Heeds (·.AtBlock seen.block.number) p :=
    fun hkept hp => hp.widen fun _ => Request.atBlock_of_observes hkept
  exact ⟨hother (by decide) (recordAccount_heeds seen), recordRegistration_atBlock caller seen,
    hother (by decide) (refreshTransfer_heeds seen), hother (by decide) (refreshNamed_heeds seen),
    followReceipt_atBlock caller seen, nofun⟩

end

/-! ## Blocks -/

section

variable (interval : Nat) (caller : String)

theorem recordBlock_atBlock (hb : b.number = number) :
    Heeds (·.AtBlock number) (recordBlock b) := by
  subst hb
  refine Heeds.widen ((recordBlock_files b).and (recordBlock_writes b)) ?_
  rintro request ⟨hfiles, hwrites⟩
  cases request with
  | store request =>
    cases request with
    | addBlock =>
      obtain ⟨record, hrecord, hrequest⟩ := hwrites rfl
      cases hrequest
      exact Request.atBlock_of_number rfl rfl (Entry.block_record hrecord)
    | _ => first | exact Request.atBlock_of_none rfl rfl rfl | cases hfiles
  | node | cache | cancelled => cases hfiles

theorem recordPreviousId_atBlock : Heeds (·.AtBlock number) (recordPreviousId b) := by
  refine Heeds.widen ((recordPreviousId_files b).and (recordPreviousId_writes b)) ?_
  rintro request ⟨hfiles, hwrites⟩
  cases request with
  | store request =>
    cases request with
    | addBlock => cases (hwrites rfl).2
    | _ => first | exact Request.atBlock_of_none rfl rfl rfl | cases hfiles
  | node | cache | cancelled => cases hfiles

theorem transaction_record_number {record : TransactionRecord} (h : tx.record = .ok record) :
    record.blockNumber = tx.blockNumber ∧ (tx.blockNumber : Int) ≤ int64Max := by
  obtain ⟨_, hnumber, -⟩ := Entry.of_bind h
  exact ⟨(Entry.transaction_record h).2, (Entry.int64_ok hnumber).2.2⟩

theorem recordTransaction_atBlock (htx : tx.blockNumber = number) :
    Heeds (·.AtBlock number) (recordTransaction tx) := by
  subst htx
  refine heeds_store (Request.atBlock_of_none rfl rfl rfl) fun found => ?_
  cases found with
  | some found => exact .done _
  | none =>
    cases hrecord : tx.record with
    | error e => exact .fail e
    | ok record =>
      have hnumber := transaction_record_number hrecord
      exact heeds_store (Request.atBlock_of_number rfl rfl hnumber) fun _ => .done _

theorem columns_atBlock (typeName : String) (sample : Payload) :
    Heeds (·.AtBlock number) (WideTable.columns typeName sample) := by
  refine heeds_cache (Request.atBlock_of_none rfl rfl rfl) fun known => ?_
  cases known with
  | some known => exact .done _
  | none =>
    refine heeds_store (Request.atBlock_of_none rfl rfl rfl) fun there => ?_
    have hfound : Heeds (·.AtBlock number)
        ((store (.columns (WideTable.name typeName))).bind fun found =>
          (cache (.keepColumns (WideTable.name typeName) found)).bind fun _ => .done found) :=
      heeds_store (Request.atBlock_of_none rfl rfl rfl) fun found =>
        heeds_cache (Request.atBlock_of_none rfl rfl rfl) fun _ => .done _
    cases there with
    | true => exact hfound
    | false => exact heeds_store (Request.atBlock_of_none rfl rfl rfl) fun _ => hfound

/-- A row gets the number that stands in the payload. -/
theorem rowNumbered_row {p : Payload} (hp : p.get? "block_num" = some (Json.ofNat number))
    (hfits : (number : Int) ≤ int64Max) (known : List Column) :
    RowNumbered number (WideTable.row known p) := by
  intro cell hcell
  obtain ⟨column, -, hcell⟩ := List.mem_filterMap.1 hcell
  obtain ⟨value, hvalue, hcell⟩ := Option.map_eq_some_iff.1 hcell
  obtain ⟨hname, rfl⟩ := Prod.mk.inj hcell
  rw [hname, hp] at hvalue
  obtain rfl := Option.some.inj hvalue
  cases column.kind with
  | bigInt =>
    have hwhole : int64Min ≤ (number : Int) ∧ (number : Int) ≤ int64Max :=
      ⟨by unfold int64Min; omega, hfits⟩
    exact .inl (congrArg Cell.bigInt (if_pos hwhole))
  | text => exact .inr rfl

theorem recordOperation_atBlock {op : Placed} (hop : op.blockNumber = number)
    (hpayload : op.payload.get? "block_num" = some (Json.ofNat op.blockNumber))
    (hfits : (number : Int) ≤ int64Max) : Heeds (·.AtBlock number) (recordOperation op) := by
  subst hop
  have hrecord : Heeds (·.AtBlock op.blockNumber)
      ((store (.operation (placeId op.blockNumber op.transaction op.index))).bind fun found =>
        if found.isSome then .done ()
        else (Program.ofExcept op.record).bind fun record => store (.addOperation record)) := by
    refine heeds_store (Request.atBlock_of_none rfl rfl rfl) fun found => ?_
    split
    · exact .done _
    cases hrecord : op.record with
    | error e => exact .fail e
    | ok record =>
      exact store_heeds (Request.atBlock_of_number rfl rfl
        ⟨(Entry.operation_record hrecord).blockNumber, hfits⟩)
  have hcolumns : Heeds (·.AtBlock op.blockNumber) (WideTable.columns op.typeName op.payload) :=
    columns_atBlock op.typeName op.payload
  refine Obeys.bind (Obeys.bind hcolumns fun _ => .done _) fun _ => ?_
  refine Obeys.bind
    (heeds_store (Request.atBlock_of_none rfl rfl rfl) fun _ => .done _) fun lacksRow => ?_
  cases lacksRow with
  | true =>
    refine Obeys.bind (Obeys.bind hcolumns fun known => store_heeds ⟨rfl, nofun, ?_⟩) fun _ =>
      hrecord
    rintro _ _ ⟨⟩
    exact ⟨hfits, rowNumbered_row hpayload hfits known⟩
  | false => exact hrecord

theorem recordReceipts_atBlock (receipts : List Receipt) :
    Heeds (·.AtBlock number) (recordReceipts receipts) := by
  refine (recordReceipts_files receipts).widen fun request hfiles => ?_
  cases request with
  | store request =>
    cases request <;> first | exact Request.atBlock_of_none rfl rfl rfl | cases hfiles
  | node | cache | cancelled => cases hfiles

theorem indexOperations_atBlock (hb : b.number = number) (hfits : (number : Int) ≤ int64Max)
    (received : List Receipt) (position : Nat) (raws : List Json) :
    Heeds (·.AtBlock number)
      (indexOperations ⟨interval, Observer.standard caller⟩ b tx received position raws) := by
  induction raws generalizing position with
  | nil => exact .done _
  | cons raw rest ih =>
    refine Obeys.bind (heeds_decode fun (typeCode, payload) => ?_) fun _ => ih (position + 1)
    have hpayload := Entry.get?_locate payload b.number tx.id position
    exact Obeys.bind (recordOperation_atBlock hb hpayload hfits) fun _ =>
      standard_atBlock caller _ hb

theorem indexTransactions_atBlock (hb : b.number = number) (hfits : (number : Int) ≤ int64Max)
    (txs : List Transaction) (htxs : ∀ tx ∈ txs, tx.blockNumber = number) :
    Heeds (·.AtBlock number)
      (indexTransactions ⟨interval, Observer.standard caller⟩ b txs) := by
  induction txs with
  | nil => exact .done _
  | cons tx rest ih =>
    refine Obeys.bind ?_ fun _ => ih fun tx htx => htxs tx (List.mem_cons_of_mem _ htx)
    refine Obeys.bind
      (neededReceipts_heeds (Request.atBlock_of_none rfl rfl rfl)) fun received => ?_
    refine Obeys.bind (recordTransaction_atBlock (htxs tx List.mem_cons_self)) fun _ => ?_
    refine Obeys.bind (indexOperations_atBlock interval caller hb hfits received 0 _) fun _ => ?_
    exact Obeys.bind (recordReceipts_atBlock received) fun _ => .done _

/-- A block is stored only if its number fits its column. -/
theorem recordBlock_returns (b : Block) :
    (recordBlock b).Returns fun _ => (b.number : Int) ≤ int64Max := by
  unfold recordBlock
  cases hrecord : b.record with
  | error e => trivial
  | ok record =>
    exact Program.returns_of_forall (fun _ => (Entry.block_record hrecord).2) _

/-- A block is processed under the number that was asked for. -/
theorem indexBlock_atBlock (given : Block) (number : Nat) :
    Heeds (·.AtBlock number)
      (indexBlock ⟨interval, Observer.standard caller⟩ (asked given number)) := by
  refine Obeys.bind_returns (recordBlock_atBlock rfl) (recordBlock_returns _) fun _ hfits => ?_
  refine Obeys.bind recordPreviousId_atBlock fun _ => ?_
  have hnumber : (asked given number).number = number := rfl
  exact indexTransactions_atBlock interval caller hnumber hfits _ fun tx => blockNumber_of_mem_asked

end

/-! ## Receipts -/

/-- Whether a receipt that is entered after some calls is one that the node has given in them. -/
def Request.Told (number : Nat) (before : List (Call interface)) (request : Request) : Prop :=
  ∀ record events, request = .store (.addReceipt record events) →
    ∃ id given receipt, (⟨.node (.receipts id), .ok given⟩ : Call interface) ∈ before ∧
      receipt ∈ given ∧ receipt.StoredAs number record events

theorem Request.told_of_isReceiptWrite {request : Request} (h : request.isReceiptWrite = false)
    (before : List (Call interface)) : request.Told number before := by
  rintro record events rfl
  cases h

theorem Request.Told.mono {before before' : List (Call interface)} {request : Request}
    (h : request.Told number before) (hbefore : before ⊆ before') :
    request.Told number before' := by
  intro record events hrequest
  obtain ⟨id, given, receipt, hcall, hreceipt⟩ := h record events hrequest
  exact ⟨id, given, receipt, hbefore hcall, hreceipt⟩

theorem told_append {calls more : List (Call interface)}
    (h : Justified (Request.Told number) calls) (h' : Justified (Request.Told number) more) :
    Justified (Request.Told number) (calls ++ more) :=
  h.append (h'.mono fun _ _ htold => Request.Told.mono htold (List.subset_append_right _ _))

/-- Whether a receipt that is entered is one of those that were received. -/
def Request.EntersOf (received : List Receipt) (request : Request) : Prop :=
  ∀ record events, request = .store (.addReceipt record events) →
    ∃ receipt ∈ received, receipt.records = .ok (record, events)

theorem Request.entersOf_of_isReceiptWrite {received : List Receipt} {request : Request}
    (h : request.isReceiptWrite = false) : request.EntersOf received := by
  rintro record events rfl
  cases h

theorem recordReceipts_entersOf {received known : List Receipt} (h : received ⊆ known) :
    Heeds (·.EntersOf known) (recordReceipts received) := by
  induction received with
  | nil => exact .done _
  | cons receipt rest ih =>
    have hrest := ih fun r hr => h (List.mem_cons_of_mem _ hr)
    unfold recordReceipts
    cases hrecords : receipt.records with
    | error e => exact .fail e
    | ok row =>
      refine heeds_store (Request.entersOf_of_isReceiptWrite rfl) fun there => ?_
      split
      · exact hrest
      · refine heeds_store ?_ fun _ => Obeys.bind hrest fun _ => .done _
        rintro _ _ ⟨⟩
        exact ⟨receipt, h List.mem_cons_self, hrecords⟩

section

variable {σ : Type} (answer : Program.Answering interface σ)

theorem told_bind {α β : Type} {p : Procedure α} {f : α → Procedure β}
    (hp : ∀ s, Justified (Request.Told number) (Program.calls answer p s))
    (hf : ∀ a s, Justified (Request.Told number) (Program.calls answer (f a) s)) (s : σ) :
    Justified (Request.Told number) (Program.calls answer (p.bind f) s) := by
  rw [Program.calls_bind]
  refine told_append (hp s) ?_
  split
  · exact hf _ _
  · exact justified_nil

/-- What is entered of the receipts that are needed was given by the node. -/
theorem neededReceipts_told {rest : List Receipt → Procedure Unit}
    (hrest : ∀ received, Heeds (·.EntersOf received) (rest received)) (s : σ) :
    Justified (Request.Told tx.blockNumber)
      (Program.calls answer ((neededReceipts tx).bind rest) s) := by
  unfold neededReceipts
  split
  · have hentered : ∀ (reply : Except Error (List Receipt)) (s : σ),
        ∀ call ∈ Program.calls answer (((Program.ofExcept reply).bind fun given =>
            .done (given.map (completeReceipt tx))).bind rest) s,
          ∃ given, reply = .ok given ∧
            Request.EntersOf (given.map (completeReceipt tx)) call.request := by
      rintro (e | given) s call hcall
      · cases hcall
      · exact ⟨given, rfl, (hrest _).allowed call hcall⟩
    rintro (_ | ⟨asked, before⟩) call later hcalls record events hrequest
    · obtain ⟨rfl, -⟩ := List.cons.inj hcalls
      cases hrequest
    obtain ⟨rfl, hlater⟩ := List.cons.inj hcalls
    have hcall : call ∈ before ++ call :: later := by simp
    obtain ⟨given, hgiven, hreceipts⟩ :=
      hentered _ _ call ((congrArg (call ∈ ·) hlater).mpr hcall)
    obtain ⟨receipt, hreceipt, hrecords⟩ := hreceipts record events hrequest
    obtain ⟨told, htold, rfl⟩ := List.mem_map.1 hreceipt
    refine ⟨tx.id, given, told, ?_, htold, Receipt.storedAs hrecords⟩
    rw [← hgiven]
    exact List.mem_cons_self
  · refine justified_of_forall fun call hcall before record events hrequest => ?_
    obtain ⟨receipt, hreceipt, -⟩ := (hrest []).allowed call hcall record events hrequest
    cases hreceipt

variable (interval : Nat) (caller : String)

theorem indexTransaction_told (b : Block) (htx : tx.blockNumber = number) (s : σ) :
    Justified (Request.Told number)
      (Program.calls answer
        (indexTransaction ⟨interval, Observer.standard caller⟩ b tx) s) := by
  subst htx
  refine neededReceipts_told answer (fun received => ?_) s
  refine Obeys.bind ((recordTransaction_files tx).widen fun _ h =>
    Request.entersOf_of_isReceiptWrite (Request.isReceiptWrite_of_files h nofun)) fun _ => ?_
  refine Obeys.bind ((indexOperations_handles interval caller b tx received 0 _).widen fun _ h =>
    Request.entersOf_of_isReceiptWrite (Request.isReceiptWrite_of_handles h)) fun _ => ?_
  exact Obeys.bind (recordReceipts_entersOf fun _ => id) fun _ => .done _

theorem indexTransactions_told (b : Block) (txs : List Transaction)
    (htxs : ∀ tx ∈ txs, tx.blockNumber = number) (s : σ) :
    Justified (Request.Told number)
      (Program.calls answer
        (indexTransactions ⟨interval, Observer.standard caller⟩ b txs) s) := by
  induction txs generalizing s with
  | nil => exact justified_nil
  | cons tx rest ih =>
    have hfirst := indexTransaction_told answer interval caller b (htxs tx List.mem_cons_self)
    exact told_bind answer hfirst
      (fun _ => ih fun tx htx => htxs tx (List.mem_cons_of_mem _ htx)) s

theorem indexBlock_told (given : Block) (s : σ) :
    Justified (Request.Told number)
      (Program.calls answer
        (indexBlock ⟨interval, Observer.standard caller⟩ (asked given number)) s) := by
  have hblocks : ∀ {α : Type} {p : Procedure α}, Heeds (·.files .blocks) p → ∀ s,
      Justified (Request.Told number) (Program.calls answer p s) := fun hp s =>
    justified_of_forall fun call hcall => Request.told_of_isReceiptWrite
      (Request.isReceiptWrite_of_files (hp.allowed call hcall) nofun)
  refine told_bind answer (hblocks (recordBlock_files _)) (fun _ => ?_) s
  refine told_bind answer (hblocks (recordPreviousId_files _)) fun _ => ?_
  exact indexTransactions_told answer interval caller _ _ fun tx => blockNumber_of_mem_asked

end

/-! ## Calls -/

/-- Whether a request enters something that has the number of a block. -/
def Request.isNumbered : Request → Bool
  | .store (.addBlock _) | .store (.addTransaction _) | .store (.addOperation _) => true
  | .store (.addRow _ _) | .store (.addReceipt _ _) => true
  | .store (.addToken _) | .store (.addTransfer _) => true
  | _ => false

/-- Whatever some calls enter that has the number of a block, it has the number that was asked for
last, and fits its column. Only receipts and events have the numbers that the node has given. -/
def NumbersAsked (calls : List (Call interface)) : Prop :=
  Justified (fun before request => Request.isNumbered request →
    ∃ number, (blocksOf before).getLast? = some number ∧ Request.AtBlock number request ∧
      Request.Told number before request) calls

theorem numbersAsked_nil : NumbersAsked [] := justified_nil

theorem numbersAsked_of_none {calls : List (Call interface)}
    (h : ∀ call ∈ calls, Request.isNumbered call.request = false) : NumbersAsked calls :=
  justified_of_forall fun call hcall before hnumbered => by
    rw [h call hcall] at hnumbered
    cases hnumbered

theorem NumbersAsked.append {calls more : List (Call interface)} (h : NumbersAsked calls)
    (h' : NumbersAsked more) : NumbersAsked (calls ++ more) := by
  refine Justified.append h (Justified.mono h' fun before request hasked hnumbered => ?_)
  obtain ⟨number, hlast, hat, htold⟩ := hasked hnumbered
  refine ⟨number, ?_, hat, htold.mono (List.subset_append_right _ _)⟩
  rw [blocksOf_append, List.getLast?_append, hlast]
  rfl

/-- After a block was asked for, what is entered has its number. -/
theorem numbersAsked_of_atBlock {calls : List (Call interface)} {call : Call interface}
    (hcall : call.request = .node (.block number))
    (h : ∀ call ∈ calls, Request.AtBlock number call.request)
    (htold : Justified (Request.Told number) calls) : NumbersAsked (call :: calls) := by
  intro before entered later hcalls hnumbered
  cases before with
  | nil =>
    obtain ⟨rfl, -⟩ := List.cons.inj hcalls
    rw [hcall] at hnumbered
    cases hnumbered
  | cons first before =>
    obtain ⟨rfl, rfl⟩ := List.cons.inj hcalls
    have hnone : blocksOf before = [] :=
      List.filterMap_eq_nil_iff.2 fun other hother => (h other (by simp [hother])).block
    have hblocks : blocksOf (call :: before) = number :: blocksOf before :=
      List.filterMap_cons_some (by rw [hcall]; rfl)
    refine ⟨number, by rw [hblocks, hnone]; rfl, h entered (by simp), ?_⟩
    exact (htold before entered later rfl).mono (List.subset_cons_self _ _)

/-- A visit to a block from the reply of the node on. -/
def visitGiven (setup : Setup) (cursor : Nat) : Except Error (Option Block) → Procedure Visit
  | .error e => .done (.failed e)
  | .ok none => .done .absent
  | .ok (some b) =>
    (indexBlock setup (asked b cursor)).attempt.bind fun processed => match processed with
      | .error e => .done (.failed e)
      | .ok () => .done .processed

theorem visit_eq (setup : Setup) (cursor : Nat) :
    visit setup cursor = cancelled.bind fun isCancelled =>
      if isCancelled then .done .cancelled
      else .ask (Request.node (.block cursor) : interface.Request) (visitGiven setup cursor) := by
  refine congrArg (Program.bind _) (funext fun isCancelled => ?_)
  cases isCancelled with
  | true => rfl
  | false =>
    refine congrArg (Program.ask _) (funext fun reply => ?_)
    rcases reply with e | _ | b <;> rfl

theorem visitGiven_atBlock (interval : Nat) (caller : String) (number : Nat)
    (reply : Except Error (Option Block)) :
    (visitGiven ⟨interval, Observer.standard caller⟩ number reply).Obeys
      ⟨fun request => Request.AtBlock number request, fun _ _ => none⟩ := by
  rcases reply with e | _ | b
  · exact .done _
  · exact .done _
  · refine Obeys.attempt_bind (indexBlock_atBlock interval caller b number) (fun _ => id)
      (fun _ _ _ _ he => (nomatch he)) fun processed => ?_
    cases processed <;> exact .done _

theorem visitGiven_told {σ : Type} (answer : Program.Answering interface σ) (interval : Nat)
    (caller : String) (number : Nat) (reply : Except Error (Option Block)) (s : σ) :
    Justified (Request.Told number)
      (Program.calls answer (visitGiven ⟨interval, Observer.standard caller⟩ number reply) s) := by
  rcases reply with e | _ | b
  · exact justified_nil
  · exact justified_nil
  · refine told_bind answer (fun s => ?_) (fun processed s => ?_) s
    · rw [Program.calls_attempt]
      exact indexBlock_told answer interval caller b s
    · cases processed <;> exact justified_nil

theorem visit_numbersAsked (env : Surroundings ω) (interval : Nat) (caller : String)
    (number : Nat) (s : Situation ω) :
    NumbersAsked ((visit ⟨interval, Observer.standard caller⟩ number).calls env.answer s) := by
  rw [visit_eq, Program.calls_bind]
  refine NumbersAsked.append (numbersAsked_of_none fun call hcall => ?_) ?_
  · rw [List.mem_singleton.1 hcall]
    rfl
  show NumbersAsked (Program.calls env.answer (if env.cancelled s.world then _ else _) s)
  split
  · exact numbersAsked_nil
  · exact numbersAsked_of_atBlock rfl (visitGiven_atBlock interval caller number _).allowed
      (visitGiven_told env.answer interval caller number _ _)

theorem numbersAsked_of_isSettling {calls : List (Call interface)}
    (h : ∀ call ∈ calls, Request.isSettling call.request) : NumbersAsked calls := by
  refine numbersAsked_of_none fun call hcall => ?_
  have hsettling := h call hcall
  cases hrequest : call.request with
  | store request =>
    rw [hrequest] at hsettling
    cases request <;> first | rfl | cases hsettling
  | node | cache | cancelled => rfl

/-- In each round of a scan a block is asked for, unless the run was cancelled, and what is entered
then has its number. -/
theorem Leg.numbersAsked (env : Surroundings ω) (interval : Nat) (caller : String) (x : Leg ω) :
    NumbersAsked (x.calls env ⟨interval, Observer.standard caller⟩) := by
  rw [Leg.calls_eq]
  exact (visit_numbersAsked env interval caller x.number x.begun).append
    (numbersAsked_of_isSettling (settle_heeds _ x.number _).allowed)

/-- A run enters everything under the number that it has asked for last. -/
theorem launch_numbersAsked (env : Surroundings ω) (interval : Nat) (caller : String)
    (start : Option Nat) (rounds : Nat) (s : Situation ω) :
    NumbersAsked
      ((launch ⟨interval, Observer.standard caller⟩ start rounds).calls env.answer s) := by
  unfold launch
  rw [Program.bind_eq, Program.calls_bind]
  refine NumbersAsked.append (numbersAsked_of_isSettling (start_heeds start).allowed) ?_
  split
  · rename_i cursor s' _
    rw [calls_scan]
    induction itinerary env ⟨interval, Observer.standard caller⟩ rounds cursor s' with
    | nil => exact numbersAsked_nil
    | cons x legs ih => exact (x.numbersAsked env interval caller).append ih
  · exact numbersAsked_nil

/-- A block whose operation has a receipt. -/
def receiptedBlock : Block :=
  { number := 1, transactions := [{ id := "t1", operations := [.arr [.int 79, .obj []]] }] }

/-- A node with this block, that gives the receipt as one of the seventh block. -/
def misnumbering : Answers
  | .receipts _ => .ok [{ blockNumber := 7 }]
  | request => Answers.lone receiptedBlock (.node "closed") request

/-- The receipt is stored under a number that was not asked for. -/
theorem receipt_under_number_not_asked_for :
    let scan := launch ⟨1, Observer.standard "caller"⟩ (some 1) 1
    let answer := (Surroundings.steady misnumbering).answer
    let s : Situation Unit := ⟨(), Memory.empty, Cache.empty⟩
    blocksOf (scan.calls answer s) = [1] ∧
      (Program.run answer scan s).2.memory.receipts.map (·.blockNumber) = [7] := by
  decide +kernel

end Scan

end ChainIndex
