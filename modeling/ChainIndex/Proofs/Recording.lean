import ChainIndex.Proofs.Entering
import ChainIndex.Scan.Recording

/-!
# Storing the chain, as entries

Each procedure that stores a part of the chain makes the entries of this part, one guarded write for
each of them.
-/

namespace ChainIndex.Scan

open Entry (enter_history)
open Store (Memory)

section

variable {ω : Type} {env : Surroundings ω} {Γ : Frame env}
  {receipts : String → Except Error (List Receipt)} {s : Situation ω}

/-! ## Blocks and transactions -/

/-- A block is stored under its number, which fits the column. -/
theorem recordBlock_enters (hs : Γ.At s) (b : Block) :
    Enters Γ receipts .strict [.block b] (recordBlock b)
      (fun _ s' => (b.number : Int) ≤ int64Max ∧ (s'.memory.block? b.number).isSome) s := by
  unfold recordBlock
  cases hrecord : b.record with
  | error e =>
    apply enters_fail hs
    simp [Entry.enterAll, Entry.enter, hrecord]
  | ok record =>
    obtain ⟨hnumber, hmax⟩ := Entry.block_record hrecord
    refine enters_read hs trivial rfl rfl fun world hs => ?_
    cases hfound : s.memory.block? record.number with
    | some found =>
      have hthere : (Entry.block b).enter s.memory = .ok s.memory := by
        simp [Entry.enter, hrecord, hfound]
      apply enters_there hs rfl hthere
      refine enters_done hs ⟨hmax, ?_⟩
      rw [← hnumber, hfound]
      rfl
    | none =>
      have hadd := Store.Memory.addBlock_of_none hfound
      have hmade : (Entry.block b).enter s.memory = s.memory.addBlock record := by
        simp [Entry.enter, hrecord, hfound]
      refine enters_make hs trivial rfl rfl (by rw [Memory.answer, hadd]; rfl) (hmade.trans hadd)
        fun world hs => ?_
      refine enters_done hs ⟨hmax, ?_⟩
      rw [← hnumber]
      exact List.find?_isSome.2 ⟨record, Store.Memory.mem_insertByNumber.2 (.inl rfl), by simp⟩

/-- The block before gets the id that is reported for it. -/
theorem recordPreviousId_enters (hs : Γ.At s) (b : Block) :
    Enters Γ receipts .strict [.previousId b] (recordPreviousId b) (fun _ _ => True) s := by
  unfold recordPreviousId
  by_cases hfirst : b.number ≤ 1 ∨ b.previous = ""
  · have hthere : (Entry.previousId b).enter s.memory = .ok s.memory := by
      simp only [Entry.enter, if_pos hfirst]
    rw [if_pos hfirst]
    apply enters_there hs rfl hthere
    exact enters_done hs trivial
  rw [if_neg hfirst]
  cases hnumber : Quantity.blockNumber.int64 (b.number - 1 : Nat) with
  | error e =>
    apply enters_fail hs
    simp [Entry.enterAll, Entry.enter, hfirst, hnumber]
  | ok number =>
    refine enters_read hs trivial rfl rfl fun world hs => ?_
    cases hfound : s.memory.block? number with
    | none =>
      have hthere : (Entry.previousId b).enter s.memory = .ok s.memory := by
        simp [Entry.enter, hfirst, hnumber, hfound]
      apply enters_there hs rfl hthere
      exact enters_done hs trivial
    | some previous =>
      by_cases hid : previous.id = ""
      · have hmade : (Entry.previousId b).enter s.memory =
            .ok (s.memory.setBlockId number b.previous) := by
          simp [Entry.enter, hfirst, hnumber, hfound, hid]
        simp only [hid, if_true]
        exact enters_write hs trivial rfl rfl
          (enterAll_one_history hs.sound.memory rfl hmade) fun _ => trivial
      · have hthere : (Entry.previousId b).enter s.memory = .ok s.memory := by
          simp [Entry.enter, hfirst, hnumber, hfound, hid]
        simp only [hid, if_false]
        apply enters_there hs rfl hthere
        exact enters_done hs trivial

theorem recordTransaction_enters (hs : Γ.At s) (tx : Transaction) :
    Enters Γ receipts .strict [.transaction tx] (recordTransaction tx) (fun _ _ => True) s := by
  unfold recordTransaction
  refine enters_read hs trivial rfl rfl fun world hs => ?_
  cases hfound : s.memory.transaction? tx.id with
  | some found =>
    have hthere : (Entry.transaction tx).enter s.memory = .ok s.memory := by
      simp [Entry.enter, hfound]
    apply enters_there hs rfl hthere
    exact enters_done hs trivial
  | none =>
    cases hrecord : tx.record with
    | error e =>
      apply enters_fail hs
      simp [Entry.enterAll, Entry.enter, hfound, hrecord]
    | ok record =>
      have hfree : s.memory.transaction? record.id = none := by
        rw [(Entry.transaction_record hrecord).1, hfound]
      have hadd := Store.Memory.addTransaction_of_none hfree
      have hmade : (Entry.transaction tx).enter s.memory = s.memory.addTransaction record := by
        simp [Entry.enter, hfound, hrecord]
      exact enters_make hs trivial rfl rfl (by rw [Memory.answer, hadd]; rfl) (hmade.trans hadd)
        fun world hs => enters_done hs trivial

/-! ## Operations -/

/-- A payload of a type makes sure that the type has its table, whose columns are known then. -/
theorem columns_enters (hs : Γ.At s) {manner : Manner} {typeName : String} {sample : Payload}
    (hsample : Memory.HasPlace (WideTable.columnsOf sample)) :
    Enters Γ receipts manner [.table typeName sample] (WideTable.columns typeName sample)
      (fun known s' => ∃ t, s'.memory.table? (WideTable.name typeName) = some t ∧
        t.columns = known) s := by
  have hthere : ∀ m : Memory, m.WellFormed → (m.table? (WideTable.name typeName)).isSome →
      (Entry.table typeName sample).enter m.history = .ok m.history := by
    intro m hm hfound
    apply enter_history hm.failing rfl
    simp [Entry.enter, Memory.addTable, hfound]
  -- where the table is there, its columns are read and remembered
  have hread : ∀ s : Situation ω, Γ.At s → (s.memory.table? (WideTable.name typeName)).isSome →
      Enters Γ receipts manner []
        ((store (.columns (WideTable.name typeName))).bind fun found =>
          (cache (.keepColumns (WideTable.name typeName) found)).bind fun _ => .done found)
        (fun known s' => ∃ t, s'.memory.table? (WideTable.name typeName) = some t ∧
          t.columns = known) s := by
    intro s hs hfound
    obtain ⟨t, ht⟩ := Option.isSome_iff_exists.1 hfound
    refine enters_store [] hs trivial rfl rfl rfl fun world hs => ?_
    have hcolumns : ((s.memory.table? (WideTable.name typeName)).map (·.columns)).getD [] =
        t.columns := by
      rw [ht]
      rfl
    rw [hcolumns]
    refine enters_cache hs ?_ fun hs => enters_done hs ⟨t, ht, rfl⟩
    refine { hs.sound with columns := fun table known hknown => ?_ }
    by_cases htable : table = WideTable.name typeName
    · subst htable
      rw [Cache.answer, Store.Memory.lookup_putEntry_self] at hknown
      exact ⟨t, ht, Option.some.inj hknown⟩
    · rw [Cache.answer, Store.Memory.lookup_putEntry_of_ne _ _ htable] at hknown
      exact hs.sound.columns table known hknown
  unfold WideTable.columns
  refine enters_cache hs hs.sound fun hs => ?_
  simp only [Cache.answer]
  cases hknown : s.cache.columns.lookup (WideTable.name typeName) with
  | some known =>
    obtain ⟨t, ht, hcolumns⟩ := hs.sound.columns _ known hknown
    have hfound := Option.isSome_iff_exists.2 ⟨t, ht⟩
    exact (enters_skip (hthere _ hs.sound.memory hfound)).2 (enters_done hs ⟨t, ht, hcolumns⟩)
  | none =>
    refine enters_read hs trivial rfl rfl fun world hs => ?_
    by_cases hfound : (s.memory.table? (WideTable.name typeName)).isSome
    · rw [hfound]
      exact (enters_skip (hthere _ hs.sound.memory hfound)).2 (hread _ hs hfound)
    · simp only [hfound, Bool.false_eq_true, if_false]
      refine enters_make hs hsample rfl rfl rfl rfl fun world hs => ?_
      exact hread _ hs (Store.Memory.table?_addTable _ _ _ _)

theorem ensure_enters (hs : Γ.At s) {typeName : String} {sample : Payload}
    (hsample : Memory.HasPlace (WideTable.columnsOf sample)) :
    Enters Γ receipts .strict [.table typeName sample] (WideTable.ensure typeName sample)
      (fun _ s' => (s'.memory.table? (WideTable.name typeName)).isSome) s := by
  apply (columns_enters hs hsample).andThen
  intro known s' hs' hknown
  obtain ⟨t, ht, -⟩ := hknown
  exact enters_done hs' (Option.isSome_iff_exists.2 ⟨t, ht⟩)

theorem lacksRow_enters (hs : Γ.At s) {typeName : String} {t : Store.Table}
    (ht : s.memory.table? (WideTable.name typeName) = some t) (transaction : String)
    (position : Nat) :
    Enters Γ receipts .strict [] (WideTable.lacksRow typeName transaction position)
      (fun lacks s' => s'.memory = s.memory ∧
        lacks = !t.rows.any (Store.Memory.isAt transaction (WideTable.position position))) s := by
  refine enters_read hs trivial rfl ?_ fun world hs => enters_done hs ⟨rfl, rfl⟩
  simp only [Memory.answer, ht]

/-- An operation is added to the table of its type, if the table has no row for it. -/
theorem addRow_enters (hs : Γ.At s) {op : Placed} (hfits : (Entry.row op).Fits) {t : Store.Table}
    (ht : s.memory.table? (WideTable.name op.typeName) = some t)
    (hrow : t.rows.any (Store.Memory.isAt op.transaction (WideTable.position op.index)) = false) :
    Enters Γ receipts .strict [.row op] (WideTable.addRow op.typeName op.payload)
      (fun _ _ => True) s := by
  have hthere : (Entry.table op.typeName op.payload).enter s.memory = .ok s.memory := by
    simp [Entry.enter, Memory.addTable, ht]
  have hcolumns : Enters Γ receipts .strict [] (WideTable.columns op.typeName op.payload)
      (fun known s' => ∃ t, s'.memory.table? (WideTable.name op.typeName) = some t ∧
        t.columns = known) s :=
    (enters_skip (enter_history hs.sound.memory.failing rfl hthere)).1
      (columns_enters hs hfits.1.hasPlace)
  apply hcolumns.before
  intro known s' hs' hhistory hknown
  obtain ⟨t', ht', rfl⟩ := hknown
  have hsame : s'.memory.table? (WideTable.name op.typeName) = some t := by
    have htable := congrArg (·.table? (WideTable.name op.typeName)) hhistory
    exact htable.trans ht
  cases hsame.symm.trans ht'
  have hadd := Entry.addRow_row hs'.sound.memory.failing hsame op.payload
  have hmade : (Entry.row op).enter s'.memory = s'.memory.addRow (WideTable.name op.typeName)
      (WideTable.row t.columns op.payload) := by
    simp [Entry.enter, Entry.tableFor, Memory.addTable, hsame, hrow]
  exact enters_write hs' trivial rfl (by rw [Memory.answer, hadd]; rfl)
    (enterAll_one_history hs'.sound.memory rfl (hmade.trans hadd)) fun _ => trivial

/-- An operation is stored among all operations. -/
theorem recordAmongAll_enters (hs : Γ.At s) (op : Placed) :
    Enters Γ receipts .strict [.operation op]
      ((store (.operation (placeId op.blockNumber op.transaction op.index))).bind fun found =>
        if found.isSome then .done ()
        else (Program.ofExcept op.record).bind fun record => store (.addOperation record))
      (fun _ _ => True) s := by
  refine enters_read hs trivial rfl rfl fun world hs => ?_
  cases hfound : s.memory.operation? (placeId op.blockNumber op.transaction op.index) with
  | some found =>
    have hthere : (Entry.operation op).enter s.memory = .ok s.memory := by
      simp [Entry.enter, hfound]
    apply enters_there hs rfl hthere
    exact enters_done hs trivial
  | none =>
    cases hrecord : op.record with
    | error e =>
      apply enters_fail hs
      simp [Entry.enterAll, Entry.enter, hfound, hrecord]
    | ok record =>
      have hof := Entry.operation_record hrecord
      have hadd := Store.Memory.addOperation_of_none (hof.id ▸ hfound)
      have hmade : (Entry.operation op).enter s.memory = s.memory.addOperation record := by
        simp [Entry.enter, hfound, hrecord]
      exact enters_write hs ⟨_, _, _, hof.id, hof.position⟩ rfl (by rw [Memory.answer, hadd]; rfl)
        (enterAll_one_history hs.sound.memory rfl (hmade.trans hadd)) fun _ => trivial

/-- An operation is stored in the table of its type and among all operations, with the two writes
looked for one by one. -/
theorem recordOperation_enters (hs : Γ.At s) {op : Placed} (hfits : (Entry.row op).Fits) :
    Enters Γ receipts .strict [.table op.typeName op.payload, .row op, .operation op]
      (recordOperation op) (fun _ _ => True) s := by
  refine (ensure_enters hs hfits.1.hasPlace).bind nofun
    fun _ s' hs' _ hfound => ?_
  obtain ⟨t, ht⟩ := Option.isSome_iff_exists.1 hfound
  refine (lacksRow_enters hs' ht op.transaction op.index).before
    fun lacks s'' hs'' _ ⟨hmemory, hlacks⟩ => ?_
  rw [← hmemory] at ht
  cases hrow : t.rows.any (Store.Memory.isAt op.transaction (WideTable.position op.index)) with
  | true =>
    have hthere : (Entry.row op).enter s''.memory = .ok s''.memory := by
      simp [Entry.enter, Entry.tableFor, ht, hrow]
    rw [hlacks, hrow]
    apply enters_there hs'' rfl hthere
    exact recordAmongAll_enters hs'' op
  | false =>
    rw [hlacks, hrow]
    exact (addRow_enters hs'' hfits ht hrow).bind nofun
      fun _ _ hs _ _ => recordAmongAll_enters hs op

/-! ## Receipts -/

theorem recordReceipts_enters (hs : Γ.At s) (outcomes : List Receipt) :
    Enters Γ receipts .strict (outcomes.map .receipt) (recordReceipts outcomes)
      (fun _ _ => True) s := by
  induction outcomes generalizing s with
  | nil => exact enters_done hs trivial
  | cons outcome rest ih =>
    unfold recordReceipts
    cases hrecords : outcome.records with
    | error e =>
      apply enters_fail hs
      simp [Entry.enterAll, Entry.enter, hrecords]
    | ok records =>
      obtain ⟨record, events⟩ := records
      refine enters_read hs trivial rfl rfl fun world hs => ?_
      cases hfound : s.memory.hasReceipt record.transaction record.operation with
      | true =>
        have hthere : (Entry.receipt outcome).enter s.memory = .ok s.memory := by
          simp [Entry.enter, hrecords, hfound]
        exact enters_there hs rfl hthere (ih hs)
      | false =>
        have hadd := Store.Memory.addReceipt_of_none events hfound
        have hmade :
            (Entry.receipt outcome).enter s.memory = s.memory.addReceipt record events := by
          simp [Entry.enter, hrecords, hfound]
        refine enters_make hs trivial rfl rfl (by rw [Memory.answer, hadd]; rfl) (hmade.trans hadd)
          fun world hs => ?_
        exact (ih hs).andThen fun _ _ hs _ => enters_done hs trivial

end

end ChainIndex.Scan
