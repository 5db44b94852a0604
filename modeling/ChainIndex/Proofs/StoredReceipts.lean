import ChainIndex.Proofs.ReceiptPlaces

/-!
# Storing a list of receipts

Receipts are stored one after the other, each with its events. One whose operation has a receipt by
then is left out, and the first that does not fit its columns ends it: what comes after it is not
looked at. `freshReceipts` says which receipts of a list are new without going through the store,
and the store afterwards is the one before with these, and their events, in order.
-/

namespace ChainIndex

open Store (Memory)

/-! ## Receipts that do not fit -/

/-- A conversion that fails only over a number that is out of range. -/
def RangeChecked {α : Type} (x : Except Error α) : Prop :=
  ∀ e, x = .error e → ∃ what n, e = .malformed (.outOfRange what n)

namespace RangeChecked

variable {α β : Type}

theorem ok (a : α) : RangeChecked (.ok a) := fun _ h => nomatch h

theorem bind {x : Except Error α} {f : α → Except Error β} (hx : RangeChecked x)
    (hf : ∀ a, RangeChecked (f a)) : RangeChecked (x >>= f) := by
  cases x with
  | ok a => exact hf a
  | error e =>
    rintro _ ⟨⟩
    exact hx e rfl

theorem int64 (what : Quantity) (n : Int) : RangeChecked (what.int64 n) := by
  unfold Quantity.int64
  split
  · exact ok n
  · rintro _ ⟨⟩
    exact ⟨what, n, rfl⟩

theorem int32 (what : Quantity) (n : Int) : RangeChecked (what.int32 n) := by
  unfold Quantity.int32
  split
  · exact ok n
  · rintro _ ⟨⟩
    exact ⟨what, n, rfl⟩

theorem events (transaction : String) (events : List Event) :
    RangeChecked (events.mapM (Event.record transaction)) := by
  induction events with
  | nil => exact ok []
  | cons event rest ih =>
    rw [List.mapM_cons]
    have hevent : RangeChecked (event.record transaction) :=
      (int64 _ _).bind fun _ => (int32 _ _).bind fun _ => ok _
    exact hevent.bind fun _ => ih.bind fun _ => ok _

theorem receipt (r : Receipt) : RangeChecked r.records :=
  (int64 _ _).bind fun _ => (int32 _ _).bind fun _ => (int64 _ _).bind fun _ =>
    (events _ _).bind fun _ => ok _

end RangeChecked

/-- Why a receipt cannot be stored, if it cannot. -/
def Receipt.refusal? (r : Receipt) : Option Error :=
  match r.records with
  | .ok _ => none
  | .error e => some e

theorem Receipt.refusal?_of_ok {r : Receipt} {records : ReceiptRecord × List EventRecord}
    (h : r.records = .ok records) : r.refusal? = none := by
  rw [refusal?, h]

theorem Receipt.refusal?_of_error {r : Receipt} {e : Error} (h : r.records = .error e) :
    r.refusal? = some e := by
  rw [refusal?, h]

/-- The receipts before the first that cannot be stored. -/
def storableReceipts (received : List Receipt) : List Receipt :=
  received.takeWhile (·.refusal?.isNone)

theorem storableReceipts_cons_ok {r : Receipt} {records : ReceiptRecord × List EventRecord}
    (h : r.records = .ok records) (rest : List Receipt) :
    storableReceipts (r :: rest) = r :: storableReceipts rest := by
  rw [storableReceipts, List.takeWhile_cons_of_pos (by rw [Receipt.refusal?_of_ok h]; rfl)]
  rfl

theorem storableReceipts_cons_error {r : Receipt} {e : Error} (h : r.records = .error e)
    (rest : List Receipt) : storableReceipts (r :: rest) = [] := by
  rw [storableReceipts, List.takeWhile_cons_of_neg (by rw [Receipt.refusal?_of_error h]; simp)]

/-! ## Receipts that are new -/

/-- The receipts of a list whose operation is neither known nor named earlier in the list. -/
def freshReceipts (known : String → Int → Bool) (received : List Receipt) : List Receipt :=
  (received.zipIdx.filter fun place =>
    !known place.1.transaction place.1.operation &&
      !(received.take place.2).any (·.isOf place.1.transaction place.1.operation)).map (·.1)

/-- After a receipt, what it names is known. -/
theorem freshReceipts_cons (known : String → Int → Bool) (r : Receipt) (rest : List Receipt) :
    freshReceipts known (r :: rest) =
      (if known r.transaction r.operation then [] else [r]) ++
        freshReceipts (fun transaction operation =>
          known transaction operation || r.isOf transaction operation) rest := by
  unfold freshReceipts
  rw [List.zipIdx_cons, List.zipIdx_succ, List.filter_cons, List.filter_map]
  cases known r.transaction r.operation <;> simp [Function.comp_def, Bool.and_assoc]

theorem mem_of_mem_freshReceipts {known : String → Int → Bool} {received : List Receipt}
    {r : Receipt} (h : r ∈ freshReceipts known received) : r ∈ received := by
  obtain ⟨place, hplace, rfl⟩ := List.mem_map.1 h
  exact List.fst_mem_of_mem_zipIdx (List.mem_of_mem_filter hplace)

/-- With a receipt whose operation is known, nothing more is known. -/
theorem known_or_isOf {known : String → Int → Bool} {r : Receipt}
    (h : known r.transaction r.operation) :
    (fun transaction operation => known transaction operation || r.isOf transaction operation) =
      known := by
  funext transaction operation
  cases hof : r.isOf transaction operation with
  | false => exact Bool.or_false _
  | true =>
    simp only [Receipt.isOf, Bool.and_eq_true, beq_iff_eq] at hof
    rw [← hof.1, ← hof.2, h]
    rfl

/-- The store with more receipts, each with its events. -/
def Store.Memory.withReceipts (m : Memory) (rows : List (ReceiptRecord × List EventRecord)) :
    Memory :=
  { m with receipts := m.receipts ++ rows.map (·.1), events := m.events ++ rows.flatMap (·.2) }

theorem Store.Memory.withReceipts_nil (m : Memory) : m.withReceipts [] = m := by
  simp [withReceipts]

theorem Store.Memory.withReceipts_append (m : Memory)
    (first rest : List (ReceiptRecord × List EventRecord)) :
    m.withReceipts (first ++ rest) = (m.withReceipts first).withReceipts rest := by
  simp [withReceipts]

theorem Store.Memory.answer_addReceipt {m : Memory} {record : ReceiptRecord}
    (events : List EventRecord) (h : m.hasReceipt record.transaction record.operation = false) :
    Memory.answer (.addReceipt record events) m =
      (.ok (), m.withReceipts [(record, events)]) := by
  rw [answer, addReceipt_of_none events h]
  simp [written, withReceipts]

/-- What has a receipt then had one, or is named by one of the receipts that came in. -/
theorem Store.Memory.hasReceipt_withReceipts (m : Memory) {received : List Receipt}
    {rows : List (ReceiptRecord × List EventRecord)}
    (hrows : received.map (·.records) = rows.map .ok) (transaction : String) (operation : Int) :
    (m.withReceipts rows).hasReceipt transaction operation =
      (m.hasReceipt transaction operation || received.any (·.isOf transaction operation)) := by
  have hany : (rows.map (·.1)).any (fun r => r.transaction == transaction &&
      r.operation == operation) = received.any (·.isOf transaction operation) := by
    induction received generalizing rows with
    | nil => rw [List.map_eq_nil_iff.1 hrows.symm]; rfl
    | cons r rest ih =>
      obtain ⟨row, others, rfl, hrow, hothers⟩ := List.map_eq_cons_iff.1 hrows.symm
      rw [List.map_cons, List.any_cons, List.any_cons, ih hothers.symm,
        Receipt.isOf_of_records (show r.records = .ok (row.1, row.2) from hrow.symm)]
  rw [hasReceipt, hasReceipt, withReceipts, List.any_append, hany]

/-- With a receipt that came in, what it names has one. -/
theorem Store.Memory.hasReceipt_withReceipt (m : Memory) {r : Receipt}
    {row : ReceiptRecord × List EventRecord} (hrow : r.records = .ok row) :
    (m.withReceipts [row]).hasReceipt = fun transaction operation =>
      m.hasReceipt transaction operation || r.isOf transaction operation := by
  have hrows : [r].map (·.records) = [row].map .ok := congrArg (· :: []) hrow
  funext transaction operation
  rw [m.hasReceipt_withReceipts hrows, List.any_cons, List.any_nil, Bool.or_false]

namespace Scan

/-- What storing receipts comes to when so many are new. -/
def storingOutcome (received : List Receipt) (count : Nat) : Except Error Nat :=
  match received.findSome? (·.refusal?) with
  | none => .ok count
  | some e => .error e

section

variable {ω : Type} {env : Surroundings ω}

/-- A store that never fails answers, whatever becomes of the world meanwhile. -/
theorem run_store_of_faultless (hstore : ∀ request world, (env.fault request world).1 = none)
    (request : Store.Request) (s : Situation ω) :
    ∃ world, Program.run env.answer (store request) s =
      ((Memory.answer request s.memory).1, ⟨world, (Memory.answer request s.memory).2, s.cache⟩) := by
  refine ⟨(env.fault request s.world).2, ?_⟩
  rw [env.run_store]
  exact env.answer_of_no_fault (Prod.ext (hstore request s.world) rfl)

/-- The receipts that can be stored and are new are stored in their order, and nothing else
changes. -/
theorem recordReceipts_run (hstore : ∀ request world, (env.fault request world).1 = none)
    (received : List Receipt) (s : Situation ω) :
    ∃ world rows,
      (freshReceipts s.memory.hasReceipt (storableReceipts received)).map (·.records) =
        rows.map .ok ∧
      Program.run env.answer (recordReceipts received) s =
        (storingOutcome received rows.length, ⟨world, s.memory.withReceipts rows, s.cache⟩) := by
  induction received generalizing s with
  | nil =>
    refine ⟨s.world, [], rfl, ?_⟩
    rw [Store.Memory.withReceipts_nil]
    rfl
  | cons r rest ih =>
    unfold recordReceipts
    cases hrecords : r.records with
    | error e =>
      refine ⟨s.world, [], by rw [storableReceipts_cons_error hrecords]; rfl, ?_⟩
      rw [Store.Memory.withReceipts_nil, storingOutcome, List.findSome?_cons,
        Receipt.refusal?_of_error hrecords]
      rfl
    | ok records =>
      obtain ⟨record, events⟩ := records
      obtain ⟨htransaction, hoperation⟩ := Receipt.records_place hrecords
      have houtcome : ∀ n, storingOutcome (r :: rest) n = storingOutcome rest n := fun n => by
        rw [storingOutcome, List.findSome?_cons, Receipt.refusal?_of_ok hrecords]
        rfl
      rw [storableReceipts_cons_ok hrecords, freshReceipts_cons, ← htransaction, ← hoperation]
      obtain ⟨world, hask⟩ :=
        run_store_of_faultless hstore (.hasReceipt record.transaction record.operation) s
      simp only [Program.ofExcept, Program.bind_eq, Program.done_bind]
      rw [Program.run_bind, hask]
      simp only [Memory.answer]
      cases hthere : s.memory.hasReceipt record.transaction record.operation with
      | true =>
        have hknown := known_or_isOf (htransaction ▸ hoperation ▸ hthere)
        obtain ⟨world', rows, hrows, hrun⟩ := ih ⟨world, s.memory, s.cache⟩
        refine ⟨world', rows, by rwa [hknown], ?_⟩
        rw [houtcome]
        exact hrun
      | false =>
        -- from here on the receipt's operation is known, to the store and to the list of new ones
        obtain ⟨world', hwrite⟩ :=
          run_store_of_faultless hstore (.addReceipt record events) ⟨world, s.memory, s.cache⟩
        rw [Store.Memory.answer_addReceipt events hthere] at hwrite
        obtain ⟨world'', rows, hrows, hrun⟩ :=
          ih ⟨world', s.memory.withReceipts [(record, events)], s.cache⟩
        refine ⟨world'', [(record, events)] ++ rows, ?_, ?_⟩
        · rw [s.memory.hasReceipt_withReceipt hrecords] at hrows
          rw [List.map_append, List.map_append, hrows, if_neg Bool.false_ne_true]
          exact congrArg (· :: _) hrecords
        · rw [if_neg Bool.false_ne_true, Program.run_bind, hwrite]
          show Program.run env.answer ((recordReceipts rest).bind fun n => .done (n + 1))
            ⟨world', s.memory.withReceipts [(record, events)], s.cache⟩ = _
          rw [Program.run_bind, hrun, houtcome, Store.Memory.withReceipts_append, storingOutcome,
            storingOutcome]
          cases rest.findSome? (·.refusal?) <;> rfl

end

end Scan

end ChainIndex
