import ChainIndex.Proofs.Entry

/-!
# The writes of entries

An entry that is made is one or two writes to a store, and the writes of entries that fit keep the
store well-formed. `Fits` is about wide tables: a row is recognised by its columns for the place,
so that the place has to fit them. The entries of tokens never fail, and the part of a store that
the chain decides does not see them.
-/

namespace ChainIndex.Entry

open Scan (Placed WideTable.name WideTable.columnsOf WideTable.index WideTable.row
  WideTable.position WideTable.cell WideTable.integer? placeId locate)
open Store (Memory)
open Store.Memory (HasPlace)

theorem of_bind {α β : Type} {x : Except Error α} {f : α → Except Error β} {b : β}
    (h : (x >>= f) = .ok b) : ∃ a, x = .ok a ∧ f a = .ok b := by
  cases x with
  | error e => cases h
  | ok a => exact ⟨a, rfl, h⟩

theorem ok_of_toOption {α : Type} {x : Except Error α} {a : α} (h : x.toOption = some a) :
    x = .ok a := by
  cases x with
  | error e => cases h
  | ok b =>
    cases h
    rfl

theorem int32_ok {what : Quantity} {n k : Int} (h : what.int32 n = .ok k) :
    k = n ∧ int32Min ≤ n ∧ n ≤ int32Max := by
  unfold Quantity.int32 at h
  split at h
  · cases h
    exact ⟨rfl, by assumption⟩
  · cases h

theorem int64_ok {what : Quantity} {n k : Int} (h : what.int64 n = .ok k) :
    k = n ∧ int64Min ≤ n ∧ n ≤ int64Max := by
  unfold Quantity.int64 at h
  split at h
  · cases h
    exact ⟨rfl, by assumption⟩
  · cases h

theorem block_record {b : Block} {record : BlockRecord} (h : b.record = .ok record) :
    record.number = b.number ∧ (b.number : Int) ≤ int64Max := by
  obtain ⟨number, hnumber, h⟩ := of_bind h
  obtain ⟨fee, -, h⟩ := of_bind h
  obtain ⟨count, -, h⟩ := of_bind h
  cases h
  obtain ⟨hnumber, -, hmax⟩ := int64_ok hnumber
  exact ⟨hnumber, hmax⟩

theorem transaction_record {tx : Transaction} {record : TransactionRecord}
    (h : tx.record = .ok record) :
    record.id = tx.id ∧ record.blockNumber = tx.blockNumber := by
  obtain ⟨_, hnumber, h⟩ := of_bind h
  obtain ⟨_, -, h⟩ := of_bind h
  obtain ⟨_, -, h⟩ := of_bind h
  obtain ⟨_, -, h⟩ := of_bind h
  obtain ⟨_, -, h⟩ := of_bind h
  obtain ⟨_, -, h⟩ := of_bind h
  cases h
  exact ⟨rfl, (int64_ok hnumber).1⟩

/-- The record of an operation has the place and the type of the operation. -/
structure RecordOf (op : Placed) (record : OperationRecord) : Prop where
  id : record.id = placeId op.blockNumber op.transaction op.index
  blockNumber : record.blockNumber = op.blockNumber
  transaction : record.transaction = op.transaction
  index : record.index = op.index
  typeName : record.typeName = op.typeName
  position : (op.index : Int) ≤ int32Max

theorem operation_record {op : Placed} {record : OperationRecord} (h : op.record = .ok record) :
    RecordOf op record := by
  obtain ⟨_, hnumber, h⟩ := of_bind h
  obtain ⟨_, -, h⟩ := of_bind h
  obtain ⟨_, hindex, h⟩ := of_bind h
  obtain ⟨_, -, h⟩ := of_bind h
  cases h
  obtain ⟨hindex, -, hmax⟩ := int32_ok hindex
  exact ⟨rfl, (int64_ok hnumber).1, rfl, hindex, rfl, hmax⟩

/-! ## Entries that fit

A wide table recognises a row by its columns for the place, in which the row's place has to fit.
-/

/-- A payload that has the place of an operation. -/
structure PlacedAt (p : Payload) (transaction : String) (position : Nat) : Prop where
  transaction : p.get? "txid" = some (.str transaction)
  position : p.get? "index_in_tx" = some (Json.ofNat position)

/-- Entries whose wide rows can be recognised. -/
def Fits : Entry → Prop
  | .table _ sample => ∃ transaction position, PlacedAt sample transaction position
  | .row op => PlacedAt op.payload op.transaction op.index ∧ (op.index : Int) ≤ int64Max
  | _ => True

/-- A payload is stored with its place. -/
theorem placedAt_locate (p : Payload) (number : Nat) (transaction : String) (position : Nat) :
    PlacedAt (locate p number transaction position) transaction position := by
  constructor
  · unfold locate
    rw [Payload.get?_putNew_of_ne _ _ (by decide), Payload.get?_putNew_of_ne _ _ (by decide),
      Payload.get?_put_of_ne _ _ (by decide), Payload.get?_put_self]
  · unfold locate
    rw [Payload.get?_putNew_of_ne _ _ (by decide), Payload.get?_putNew_of_ne _ _ (by decide),
      Payload.get?_put_self]

theorem get?_locate (p : Payload) (number : Nat) (transaction : String) (position : Nat) :
    (locate p number transaction position).get? "block_num" = some (Json.ofNat number) := by
  unfold locate
  rw [Payload.get?_putNew_of_ne _ _ (by decide), Payload.get?_putNew_of_ne _ _ (by decide),
    Payload.get?_put_of_ne _ _ (by decide), Payload.get?_put_of_ne _ _ (by decide),
    Payload.get?_put_self]

theorem mem_columnsOf {p : Payload} {key : String} {value : Json} (h : p.get? key = some value) :
    (⟨key, Scan.WideTable.kindOf value⟩ : Column) ∈ WideTable.columnsOf p := by
  have hmem : (key, value) ∈ p.members := by
    unfold Payload.get? at h
    generalize p.members = members at h
    induction members with
    | nil => simp at h
    | cons entry rest ih =>
      obtain ⟨k, v⟩ := entry
      by_cases hk : key = k
      · subst hk
        simp_all
      · simp only [List.lookup_cons, beq_eq_false_iff_ne.2 hk] at h
        exact List.mem_cons_of_mem _ (ih h)
  exact List.mem_map.2 ⟨(key, value), hmem, rfl⟩

/-- The table that a placed payload founds recognises rows. -/
theorem PlacedAt.hasPlace {p : Payload} {transaction : String} {position : Nat}
    (h : PlacedAt p transaction position) : HasPlace (WideTable.columnsOf p) :=
  ⟨mem_columnsOf h.transaction, mem_columnsOf h.position⟩

/-- A position that fits its column is stored as it is. -/
theorem position_eq {n : Nat} (h : (n : Int) ≤ int64Max) : WideTable.position n = n := by
  unfold WideTable.position
  unfold int64Max at h
  refine Int.bmod_eq_of_le ?_ ?_
  · simp only [word64Max]
    omega
  · simp only [word64Max]
    omega

/-- A number that fits a column is what the column stores for it. -/
theorem integer?_ofNat {n : Nat} (h : (n : Int) ≤ int64Max) :
    WideTable.integer? (Json.ofNat n) = some (n : Int) := by
  have hmin : int64Min ≤ (n : Int) := by
    unfold int64Min
    omega
  simp [WideTable.integer?, Json.ofNat, Json.int64?, hmin, h]

/-- The row of a placed payload is at its place. -/
theorem isAt_row {columns : List Column} {p : Payload} {transaction : String} {position : Nat}
    (hcolumns : HasPlace columns) (hp : PlacedAt p transaction position)
    (hposition : (position : Int) ≤ int64Max) :
    Store.Memory.isAt transaction (WideTable.position position) (WideTable.row columns p) := by
  have htransaction : ("txid", Cell.text (some transaction)) ∈ WideTable.row columns p :=
    List.mem_filterMap.2 ⟨_, hcolumns.1, by simp [hp.transaction, WideTable.cell,
      Scan.WideTable.text?]⟩
  have hindex : ("index_in_tx", Cell.bigInt (some (position : Int))) ∈ WideTable.row columns p :=
    List.mem_filterMap.2 ⟨_, hcolumns.2, by simp [hp.position, WideTable.cell,
      integer?_ofNat hposition]⟩
  unfold Store.Memory.isAt
  rw [Bool.and_eq_true, List.any_eq_true, List.any_eq_true, position_eq hposition]
  exact ⟨⟨_, htransaction, by simp⟩, ⟨_, hindex, by simp⟩⟩

theorem tableFor_hasPlace {m : Memory} (hm : m.WellFormed) {op : Placed}
    (hfits : (Entry.row op).Fits) : HasPlace (tableFor m op).columns := by
  unfold tableFor
  cases htable : m.table? (WideTable.name op.typeName) with
  | none => exact hfits.1.hasPlace
  | some found => exact hm.tables _ found htable

/-- Where an operation is entered, its table is there. -/
theorem addTable_tableFor (m : Memory) (op : Placed) :
    (m.addTable (WideTable.name op.typeName) (WideTable.columnsOf op.payload)
      (WideTable.index (WideTable.name op.typeName))).table? (WideTable.name op.typeName) =
      some (tableFor m op) := by
  unfold tableFor Memory.addTable
  cases htable : m.table? (WideTable.name op.typeName) with
  | none =>
    have hlookup : m.tables.lookup (WideTable.name op.typeName) = none := htable
    simp [Memory.table?, List.lookup_append, hlookup]
  | some found => simpa using htable

/-- A row fits the table that it is made for, so that its entry is made without failure. -/
theorem addRow_row {m : Memory} (hfailing : m.failing = []) {name : String} {known : Store.Table}
    (hknown : m.table? name = some known) (p : Payload) :
    m.addRow name (WideTable.row known.columns p) =
      .ok { m with
        tables := Store.Memory.putEntry name
          { known with rows := known.rows ++ [WideTable.row known.columns p] } m.tables } := by
  have hcells : (WideTable.row known.columns p).find?
      (fun cell => !known.columns.any (·.name == cell.1)) = none := by
    rw [List.find?_eq_none]
    intro cell hcell
    obtain ⟨column, hcolumn, hvalue⟩ := List.mem_filterMap.1 hcell
    obtain ⟨value, -, rfl⟩ := Option.map_eq_some_iff.1 hvalue
    have hany : known.columns.any (·.name == column.name) :=
      List.any_eq_true.2 ⟨column, hcolumn, by simp⟩
    simp [hany]
  simp [Memory.addRow, hfailing, hknown, hcells]

theorem newToken_id {seen : Observation} {r : Registration} {record : TokenRecord}
    (h : Observer.newToken seen r = .ok record) : record.id = r.contract := by
  obtain ⟨number, -, h⟩ := of_bind h
  cases h
  rfl

theorem transferRecord_place {seen : Observation} {told : Event} {transfer : Transfer}
    {position : Int} {record : TransferRecord}
    (h : Observer.transferRecord seen told transfer position = .ok record) :
    record.transaction = seen.transaction ∧ record.operation = position := by
  unfold Observer.transferRecord at h
  split at h
  · obtain ⟨time, -, h⟩ := of_bind h
    obtain ⟨number, -, h⟩ := of_bind h
    cases h
    exact ⟨rfl, rfl⟩
  · cases h

/-- The entries of tokens are always made, and the part that the chain decides knows nothing of
them. -/
theorem enter_derived (m : Memory) (entry : Entry) (hentry : entry.isIndexed = false) :
    ∃ m', entry.enter m = .ok m' ∧ m'.indexed = m.indexed ∧ m'.failing = m.failing := by
  cases entry with
  | token seen r =>
    simp only [enter]
    by_cases hknown : (m.token? r.contract).isSome
    · exact ⟨m, by simp [hknown], rfl, rfl⟩
    · rw [if_neg hknown]
      cases hrecord : Observer.newToken seen r with
      | error e => exact ⟨m, rfl, rfl, rfl⟩
      | ok record =>
        have hnone : m.token? record.id = none := by
          rw [newToken_id hrecord]
          exact Option.not_isSome_iff_eq_none.1 hknown
        exact ⟨_, Store.Memory.addToken_of_none hnone, rfl, rfl⟩
  | event seen told =>
    simp only [enter]
    cases m.token? told.contract with
    | none => exact ⟨m, rfl, rfl, rfl⟩
    | some known =>
      by_cases hinited : told.name = "Inited"
      · exact ⟨_, if_pos hinited, rfl, rfl⟩
      by_cases htransfer : told.name = "Transfer"
      · simp only [if_neg hinited, if_pos htransfer, enterTransfer]
        cases transfer? seen told with
        | none => exact ⟨m, rfl, rfl, rfl⟩
        | some pair =>
          obtain ⟨transfer, position⟩ := pair
          by_cases hrecorded : (m.transfer? seen.transaction position).isSome
          · exact ⟨m, by simp [hrecorded], rfl, rfl⟩
          · simp only [if_neg hrecorded]
            cases hrecord : Observer.transferRecord seen told transfer position with
            | error e => exact ⟨m, rfl, rfl, rfl⟩
            | ok record =>
              obtain ⟨htransaction, hposition⟩ := transferRecord_place hrecord
              have hnone : m.transfer? record.transaction record.operation = none := by
                rw [htransaction, hposition]
                exact Option.not_isSome_iff_eq_none.1 hrecorded
              exact ⟨_, Store.Memory.addTransfer_of_none hnone, rfl, rfl⟩
      · exact ⟨m, by simp only [if_neg hinited, if_neg htransfer], rfl, rfl⟩
  | _ => cases hentry

/-! ## The writes of an entry -/

/-- The requests that make an entry. -/
def Writes : Entry → Store.Request → Prop
  | .block b, .addBlock record => b.record = .ok record
  | .previousId b, .setBlockId _ id => id = b.previous ∧ id ≠ ""
  | .transaction _, .addTransaction _ => True
  | .table _ sample, .addTable _ declared _ => declared = WideTable.columnsOf sample
  | .row op, .addTable _ declared _ => declared = WideTable.columnsOf op.payload
  | .row _, .addRow _ _ => True
  | .operation op, .addOperation record => op.record = .ok record
  | .account _, .addAccount _ => True
  | .receipt _, .addReceipt _ _ => True
  | .token _ _, .addToken _ => True
  | .event _ _, .setToken _ => True
  | .event _ _, .addTransfer _ => True
  | _, _ => False

/-- Making an entry keeps what its writes keep. -/
theorem enter_keeps {P : Memory → Prop} {entry : Entry} {m m' : Memory}
    (hwrite : ∀ request m, entry.Writes request → P m → P (Memory.answer request m).2)
    (h : entry.enter m = .ok m') (hm : P m) : P m' := by
  have hwritten : ∀ request {m r m'}, entry.Writes request → P m →
      Memory.answer request m = (r, m') → P m' := by
    intro request m r m' hrequest hm hanswer
    have hkept := hwrite request m hrequest hm
    rwa [hanswer] at hkept
  cases entry with
  | refusal e => cases h
  | block b =>
    obtain ⟨record, hrecord, h⟩ := of_bind h
    split at h
    · cases h
      exact hm
    · exact hwritten (.addBlock record) hrecord hm (by rw [Memory.answer, h]; rfl)
  | previousId b =>
    simp only [enter] at h
    split at h
    · cases h
      exact hm
    · rename_i hnumber
      obtain ⟨number, -, h⟩ := of_bind h
      split at h
      · cases h
        exact hm
      · split at h <;> cases h
        · exact hwritten (.setBlockId number b.previous)
            ⟨rfl, fun hempty => hnumber (.inr hempty)⟩ hm rfl
        · exact hm
  | transaction tx =>
    simp only [enter] at h
    split at h
    · cases h
      exact hm
    · obtain ⟨record, -, h⟩ := of_bind h
      exact hwritten (.addTransaction record) trivial hm (by rw [Memory.answer, h]; rfl)
  | table typeName sample =>
    cases h
    exact hwritten (.addTable _ _ _) rfl hm rfl
  | row op =>
    simp only [enter] at h
    split at h
    · cases h
      exact hm
    · refine hwritten (.addRow _ _) trivial ?_ (by rw [Memory.answer, h]; rfl)
      exact hwritten (.addTable _ _ _) rfl hm rfl
  | operation op =>
    simp only [enter] at h
    split at h
    · cases h
      exact hm
    · obtain ⟨record, hrecord, h⟩ := of_bind h
      exact hwritten (.addOperation record) hrecord hm (by rw [Memory.answer, h]; rfl)
  | account holder =>
    simp only [enter] at h
    split at h
    · cases h
      exact hm
    · exact hwritten (.addAccount holder) trivial hm (by rw [Memory.answer, h]; rfl)
  | receipt outcome =>
    obtain ⟨⟨record, events⟩, -, h⟩ := of_bind h
    change (if m.hasReceipt _ _ then _ else _) = _ at h
    split at h
    · cases h
      exact hm
    · exact hwritten (.addReceipt record events) trivial hm
        (by rw [Memory.answer, h]; rfl)
  | token seen registration =>
    simp only [enter] at h
    split at h
    · cases h
      exact hm
    · split at h
      · exact hwritten (.addToken _) trivial hm (by rw [Memory.answer, h]; rfl)
      · cases h
        exact hm
  | event seen told =>
    simp only [enter] at h
    split at h
    · cases h
      exact hm
    · rename_i known _
      split at h
      · cases h
        exact hwritten (.setToken { known with state := some "common" }) trivial hm rfl
      · split at h
        · unfold enterTransfer at h
          split at h
          · cases h
            exact hm
          · split at h
            · cases h
              exact hm
            · split at h
              · exact hwritten (.addTransfer _) trivial hm (by rw [Memory.answer, h]; rfl)
              · cases h
                exact hm
        · cases h
          exact hm

/-- The writes of an entry that fits are proper. -/
theorem Writes.proper {entry : Entry} {request : Store.Request} (h : entry.Writes request)
    (hfits : entry.Fits) : request.Proper := by
  cases request with
  | addTable name declared index =>
    cases entry with
    | table typeName sample =>
      obtain ⟨transaction, position, hplaced⟩ := hfits
      cases h
      exact hplaced.hasPlace
    | row op =>
      cases h
      exact hfits.1.hasPlace
    | _ => cases h
  | addOperation record =>
    cases entry with
    | operation op =>
      have hof := operation_record h
      exact ⟨_, _, _, hof.id, hof.position⟩
    | _ => cases h
  | _ => trivial

/-- A store stays well-formed where entries that fit are made. -/
theorem enter_wellFormed {m m' : Memory} (hm : m.WellFormed) {entry : Entry} (hfits : entry.Fits)
    (h : entry.enter m = .ok m') : m'.WellFormed :=
  enter_keeps (fun _ _ hrequest hm => Memory.answer_wellFormed hm (hrequest.proper hfits)) h hm

theorem enter_grows {m m' : Memory} {entry : Entry} (h : entry.enter m = .ok m') : m.Grows m' :=
  enter_keeps (fun request m₁ _ hgrows => hgrows.trans (Memory.answer_grows request m₁)) h
    (Memory.Grows.refl m)

theorem enterAll_wellFormed {es : List Entry} {m : Memory} (hm : m.WellFormed)
    (hfits : ∀ entry ∈ es, entry.Fits) : (enterAll es m).2.WellFormed := by
  induction es generalizing m with
  | nil => exact hm
  | cons entry rest ih =>
    simp only [enterAll]
    cases h : entry.enter m with
    | error e => exact hm
    | ok m₁ =>
      exact ih (enter_wellFormed hm (hfits entry (by simp)) h) fun e he => hfits e (by simp [he])

/-- Seen from what the chain decides, the entries that it decides are the only ones. -/
theorem enterAll_indexed {es : List Entry} {m : Memory} (hm : m.WellFormed)
    (hfits : ∀ entry ∈ es, entry.Fits) :
    enterAll (es.filter isIndexed) m.indexed =
      ((enterAll es m).1, (enterAll es m).2.indexed) := by
  induction es generalizing m with
  | nil => rfl
  | cons entry rest ih =>
    have hrest : ∀ m₁, entry.enter m = .ok m₁ →
        enterAll (rest.filter isIndexed) m₁.indexed =
          ((enterAll rest m₁).1, (enterAll rest m₁).2.indexed) := by
      intro m₁ h₁
      have hm₁ := enter_wellFormed hm (hfits entry (by simp)) h₁
      exact ih hm₁ fun e he => hfits e (by simp [he])
    by_cases hentry : entry.isIndexed
    · rw [List.filter_cons_of_pos hentry]
      have hview : entry.enter m.indexed = (entry.enter m).map (·.indexed) :=
        enter_view (fun _ => []) (fun _ => []) hm.failing hentry
      simp only [enterAll, hview]
      cases h : entry.enter m with
      | error e => rfl
      | ok m₁ => exact hrest m₁ h
    · rw [List.filter_cons_of_neg hentry]
      obtain ⟨m₁, h₁, hindexed, -⟩ := enter_derived m entry (Bool.eq_false_iff.2 hentry)
      simp only [enterAll, h₁]
      rw [← hindexed]
      exact hrest m₁ h₁

end ChainIndex.Entry
