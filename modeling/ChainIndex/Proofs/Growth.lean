import ChainIndex.Proofs.Retention

/-!
# A store only grows

No request to a store removes anything from it: a key that is taken stays taken, a wide table keeps
its columns and its rows. `Memory.Grows` states this for two stores in the terms of their look-ups,
`answer_grows` that every request keeps to it.
-/

namespace ChainIndex.Store.Memory

/-! ## Growth -/

/-- Whatever can be found in a store can be found in another. -/
structure Grows (m m' : Memory) : Prop where
  block : ∀ number, (m.block? number).isSome → (m'.block? number).isSome
  transaction : ∀ id, (m.transaction? id).isSome → (m'.transaction? id).isSome
  operation : ∀ id, (m.operation? id).isSome → (m'.operation? id).isSome
  table : ∀ name t, m.table? name = some t →
    ∃ t', m'.table? name = some t' ∧ t'.columns = t.columns ∧ ∀ row ∈ t.rows, row ∈ t'.rows
  receipt : ∀ transaction operation, m.hasReceipt transaction operation →
    m'.hasReceipt transaction operation
  account : ∀ owner, (m.account? owner).isSome → (m'.account? owner).isSome
  asset : ∀ id, (m.asset? id).isSome → (m'.asset? id).isSome
  token : ∀ id, (m.token? id).isSome → (m'.token? id).isSome

@[simp] theorem Grows.refl (m : Memory) : m.Grows m where
  block _ := id
  transaction _ := id
  operation _ := id
  table _ t h := ⟨t, h, rfl, fun _ => id⟩
  receipt _ _ := id
  account _ := id
  asset _ := id
  token _ := id

theorem Grows.trans {m m' m'' : Memory} (h : m.Grows m') (h' : m'.Grows m'') : m.Grows m'' where
  block n hn := h'.block n (h.block n hn)
  transaction id hid := h'.transaction id (h.transaction id hid)
  operation id hid := h'.operation id (h.operation id hid)
  table name t ht := by
    obtain ⟨t', ht', hcolumns, hrows⟩ := h.table name t ht
    obtain ⟨t'', ht'', hcolumns', hrows'⟩ := h'.table name t' ht'
    exact ⟨t'', ht'', hcolumns'.trans hcolumns, fun row hrow => hrows' row (hrows row hrow)⟩
  receipt transaction operation hr := h'.receipt _ _ (h.receipt _ _ hr)
  account owner ho := h'.account owner (h.account owner ho)
  asset id hid := h'.asset id (h.asset id hid)
  token id hid := h'.token id (h.token id hid)

/-- A table that is not there has never been there. -/
theorem Grows.table?_eq_none {m m' : Memory} (h : m.Grows m') {name : String}
    (hnone : m'.table? name = none) : m.table? name = none := by
  cases ht : m.table? name with
  | none => rfl
  | some t =>
    obtain ⟨t', ht', -⟩ := h.table name t ht
    rw [hnone] at ht'
    cases ht'

/-- What a store retains is found there. -/
theorem Retains.grows {m m' : Memory} (h : m.Retains m') : m.Grows m' where
  block _ := isSome_find?_of_subset h.numbers.subset
  transaction _ := isSome_find?_of_subset (h.transactions.map _).subset
  operation _ := isSome_find?_of_subset (h.operations.map _).subset
  table name t ht := by
    obtain ⟨t', ht', hkept⟩ := h.table name t ht
    exact ⟨t', ht', hkept.columns, hkept.rows.subset⟩
  receipt transaction operation hr := by
    rw [hasReceipt_iff] at hr ⊢
    exact (h.receipts.map _).subset hr
  account _ := isSome_find?_of_subset (h.accounts.map _).subset
  asset _ := isSome_find?_of_subset (h.assets.map _).subset
  token _ := isSome_find?_of_subset h.tokens.subset

/-- No request takes anything away. -/
theorem answer_grows (request : Request) (m : Memory) : m.Grows (Memory.answer request m).2 :=
  (answer_retains request m).grows

/-- A table that is made is there. -/
theorem table?_addTable (m : Memory) (name : String) (columns : List Column) (index : TableIndex) :
    ((m.addTable name columns index).table? name).isSome := by
  unfold addTable
  split
  · assumption
  · simp [table?, List.lookup_append]

/-! ## Free keys

A write fails for a key that is taken, and for no other reason.
-/

section

variable {m : Memory}

theorem any_of_find?_none {α : Type} {p : α → Bool} {l : List α} (h : l.find? p = none) :
    l.any p = false := by
  rw [← List.isSome_find?, h, Option.isSome_none]

theorem addBlock_of_none {record : BlockRecord} (h : m.block? record.number = none) :
    m.addBlock record = .ok { m with blocks := insertByNumber record m.blocks } := by
  simp [addBlock, any_of_find?_none h]

/-- A block that could be added is found under its number, which was free, and the others are found
as before. -/
theorem block?_of_addBlock {m' : Memory} {record : BlockRecord} (h : m.addBlock record = .ok m') :
    m.block? record.number = none ∧
      ∀ number, m'.block? number =
        if number = record.number then some record else m.block? number := by
  have hfree : m.block? record.number = none := by
    unfold addBlock at h
    split at h
    · cases h
    · rename_i hany
      exact List.find?_eq_none.2 fun b hb hnumber => hany (List.any_eq_true.2 ⟨b, hb, hnumber⟩)
  rw [addBlock_of_none hfree] at h
  obtain rfl := Except.ok.inj h
  refine ⟨hfree, fun number => ?_⟩
  split
  · rename_i hnumber
    rw [hnumber]
    exact find?_insertByNumber_self hfree
  · exact find?_insertByNumber ‹_›

/-- Setting the id of a block is seen in the look-up of that block alone. -/
theorem block?_setBlockId (m : Memory) (number n : Int) (id : String) :
    (m.setBlockId number id).block? n =
      if n = number then (m.block? number).map ({ · with id := id }) else m.block? n := by
  split
  · rename_i hn
    rw [hn]
    exact find?_updateFirst_self m.blocks fun _ _ => by simp
  · rename_i hn
    have hother : ∀ block : BlockRecord, block.number == number → (block.number == n) = false := by
      intro block hblock
      rw [beq_eq_false_iff_ne, beq_iff_eq.1 hblock]
      exact Ne.symm hn
    exact find?_updateFirst_of_ne m.blocks (fun block _ => hother block)
      fun block _ => hother block

theorem addTransaction_of_none {record : TransactionRecord}
    (h : m.transaction? record.id = none) :
    m.addTransaction record = .ok { m with transactions := m.transactions ++ [record] } := by
  simp [addTransaction, any_of_find?_none h]

theorem addOperation_of_none {record : OperationRecord} (h : m.operation? record.id = none) :
    m.addOperation record = .ok { m with operations := m.operations ++ [record] } := by
  simp [addOperation, any_of_find?_none h]

theorem addAccount_of_none {record : AccountRecord} (h : m.account? record.owner = none) :
    m.addAccount record = .ok { m with accounts := m.accounts ++ [record] } := by
  simp [addAccount, any_of_find?_none h]

theorem addReceipt_of_none {record : ReceiptRecord} (events : List EventRecord)
    (h : m.hasReceipt record.transaction record.operation = false) :
    m.addReceipt record events =
      .ok { m with receipts := m.receipts ++ [record], events := m.events ++ events } := by
  simp [addReceipt, h]

theorem addToken_of_none {record : TokenRecord} (h : m.token? record.id = none) :
    m.addToken record = .ok { m with tokens := m.tokens ++ [record] } := by
  simp [addToken, any_of_find?_none h]

theorem addTransfer_of_none {record : TransferRecord}
    (h : m.transfer? record.transaction record.operation = none) :
    m.addTransfer record = .ok { m with transfers := m.transfers ++ [record] } := by
  simp [addTransfer, any_of_find?_none h]

end

end ChainIndex.Store.Memory

/-! ## The parts of a store -/

namespace ChainIndex.Store

/-- The lists of a store that are looked at apart from each other. -/
inductive Part where
  | blocks
  | tables
  | operations
  | assets
  | balances
  | tokens
  | holdings
  | transfers
deriving DecidableEq

/-- The part that a request can write to. -/
def Request.target? : Request → Option Part
  | .addBlock _ | .setBlockId _ _ => some .blocks
  | .addTable _ _ _ | .addRow _ _ => some .tables
  | .addOperation _ => some .operations
  | .addAsset _ => some .assets
  | .putBalance _ => some .balances
  | .addToken _ | .setToken _ => some .tokens
  | .putHolding _ => some .holdings
  | .addTransfer _ => some .transfers
  | _ => none

/-- Whether a part of a store is the same in another. -/
def Part.Same : Part → Memory → Memory → Prop
  | .blocks, m, m' => m'.blocks = m.blocks
  | .tables, m, m' => m'.tables = m.tables
  | .operations, m, m' => m'.operations = m.operations
  | .assets, m, m' => m'.assets = m.assets
  | .balances, m, m' => m'.balances = m.balances
  | .tokens, m, m' => m'.tokens = m.tokens
  | .holdings, m, m' => m'.holdings = m.holdings
  | .transfers, m, m' => m'.transfers = m.transfers

theorem Part.Same.refl (part : Part) (m : Memory) : part.Same m m := by
  cases part <;> rfl

open Memory in
/-- A request leaves the parts that it cannot write to. -/
theorem Memory.answer_same {request : Request} {part : Part} (h : request.target? ≠ some part)
    (m : Memory) : part.Same m (Memory.answer request m).2 := by
  cases request with
  | addBlock | addTransaction | addOperation | addReceipt | addAccount | addToken | addTransfer =>
    apply written_keeps (Part.Same.refl part m)
    intro m' hadd
    rw [of_free hadd]
    cases part <;> first | rfl | exact absurd rfl h
  | addRow name row =>
    apply written_keeps (Part.Same.refl part m)
    intro m' hadd
    obtain ⟨table, -, rfl⟩ := of_addRow hadd
    cases part <;> first | rfl | exact absurd rfl h
  | addTable | addAsset =>
    simp only [answer, addTable, addAsset]
    split
    · exact Part.Same.refl part m
    · cases part <;> first | rfl | exact absurd rfl h
  | hasRow =>
    simp only [answer]
    split <;> exact Part.Same.refl part m
  | putConfig | setBlockId | columns | putBalance | setToken | putHolding =>
    cases part <;> first | rfl | exact absurd rfl h
  -- the other requests only read
  | _ => exact Part.Same.refl part m

end ChainIndex.Store
