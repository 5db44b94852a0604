import ChainIndex.Proofs.Lookups

/-!
# What a store retains

Records are added at the end of their lists, blocks at the place of their number, and none is taken
away. The id of a block, the amount of a balance, a config value and the record of a token may be
written anew; everything else stays as it was written first. `Memory.Retains` states this for an
earlier and a later store, `answer_retains` that every request keeps to it.
-/

namespace ChainIndex

/-- The block without its own id, which the next block reports. -/
def BlockRecord.unnamed (block : BlockRecord) : BlockRecord := { block with id := "" }

/-- The operation that a receipt belongs to. -/
def ReceiptRecord.place (receipt : ReceiptRecord) : String × Int :=
  (receipt.transaction, receipt.operation)

/-- The address and the asset of a balance. -/
def BalanceRecord.key (balance : BalanceRecord) : String × String := (balance.owner, balance.asset)

/-- The token and the owner of a balance. -/
def HoldingRecord.key (balance : HoldingRecord) : String × String :=
  (balance.contract, balance.owner)

/-- The operation that a transfer belongs to. -/
def TransferRecord.place (transfer : TransferRecord) : String × Int :=
  (transfer.transaction, transfer.operation)

namespace Store

/-- A later state of a wide table has its columns and its index, and its rows before all others. -/
structure Table.Retains (t t' : Table) : Prop where
  columns : t'.columns = t.columns
  index : t'.index = t.index
  rows : t.rows <+: t'.rows

@[simp] theorem Table.Retains.refl (t : Table) : t.Retains t := ⟨rfl, rfl, List.prefix_refl _⟩

theorem Table.Retains.trans {t t' t'' : Table} (h : t.Retains t') (h' : t'.Retains t'') :
    t.Retains t'' where
  columns := h'.columns.trans h.columns
  index := h'.index.trans h.index
  rows := h.rows.trans h'.rows

namespace Memory

/-- A later store has the records of an earlier one. -/
structure Retains (m m' : Memory) : Prop where
  configs : m.configs.map (·.1) <+: m'.configs.map (·.1)
  blocks : (m.blocks.map (·.unnamed)).Sublist (m'.blocks.map (·.unnamed))
  transactions : m.transactions <+: m'.transactions
  operations : m.operations <+: m'.operations
  tables : m.tables.map (·.1) <+: m'.tables.map (·.1)
  table : ∀ name t, m.table? name = some t → ∃ t', m'.table? name = some t' ∧ t.Retains t'
  receipts : m.receipts <+: m'.receipts
  events : m.events <+: m'.events
  accounts : m.accounts <+: m'.accounts
  assets : m.assets <+: m'.assets
  balances : m.balances.map (·.key) <+: m'.balances.map (·.key)
  tokens : m.tokens.map (·.id) <+: m'.tokens.map (·.id)
  holdings : m.holdings.map (·.key) <+: m'.holdings.map (·.key)
  transfers : m.transfers <+: m'.transfers
  columnQueries : m.columnQueries ≤ m'.columnQueries
  configWrites : m.configWrites ≤ m'.configWrites
  failing : m.failing <:+ m'.failing

@[simp] theorem Retains.refl (m : Memory) : m.Retains m where
  configs := List.prefix_refl _
  blocks := List.Sublist.refl _
  transactions := List.prefix_refl _
  operations := List.prefix_refl _
  tables := List.prefix_refl _
  table _ t h := ⟨t, h, Table.Retains.refl t⟩
  receipts := List.prefix_refl _
  events := List.prefix_refl _
  accounts := List.prefix_refl _
  assets := List.prefix_refl _
  balances := List.prefix_refl _
  tokens := List.prefix_refl _
  holdings := List.prefix_refl _
  transfers := List.prefix_refl _
  columnQueries := Nat.le_refl _
  configWrites := Nat.le_refl _
  failing := List.suffix_refl _

theorem Retains.trans {m m' m'' : Memory} (h : m.Retains m') (h' : m'.Retains m'') :
    m.Retains m'' where
  configs := h.configs.trans h'.configs
  blocks := h.blocks.trans h'.blocks
  transactions := h.transactions.trans h'.transactions
  operations := h.operations.trans h'.operations
  tables := h.tables.trans h'.tables
  table name t ht := by
    obtain ⟨t', ht', hkept⟩ := h.table name t ht
    obtain ⟨t'', ht'', hkept'⟩ := h'.table name t' ht'
    exact ⟨t'', ht'', hkept.trans hkept'⟩
  receipts := h.receipts.trans h'.receipts
  events := h.events.trans h'.events
  accounts := h.accounts.trans h'.accounts
  assets := h.assets.trans h'.assets
  balances := h.balances.trans h'.balances
  tokens := h.tokens.trans h'.tokens
  holdings := h.holdings.trans h'.holdings
  transfers := h.transfers.trans h'.transfers
  columnQueries := Nat.le_trans h.columnQueries h'.columnQueries
  configWrites := Nat.le_trans h.configWrites h'.configWrites
  failing := h.failing.trans h'.failing

/-- A receipt is stored for an operation if one belongs there. -/
theorem hasReceipt_iff {m : Memory} {transaction : String} {operation : Int} :
    m.hasReceipt transaction operation ↔ (transaction, operation) ∈ m.receipts.map (·.place) := by
  simp [hasReceipt, ReceiptRecord.place]

/-- The numbers of the blocks are retained with the blocks. -/
theorem Retains.numbers {m m' : Memory} (h : m.Retains m') :
    (m.blocks.map (·.number)).Sublist (m'.blocks.map (·.number)) := by
  have hmap := h.blocks.map (·.number)
  rwa [List.map_map, List.map_map] at hmap

/-! ## Writes -/

section

variable {m m' : Memory}

/-- What may be added at the end leaves what was there at the front. -/
theorem prefix_ite {α : Type} {c : Prop} [Decidable c] (l added : List α) :
    l <+: if c then l else l ++ added := by
  split
  · exact List.prefix_refl _
  · exact List.prefix_append _ _

theorem putConfig_retains (key value : String) : m.Retains (m.putConfig key value) := by
  refine { Retains.refl m with configs := ?_, configWrites := Nat.le_succ _ }
  show _ <+: (putEntry key value m.configs).map (·.1)
  rw [keys_putEntry]
  exact prefix_ite _ _

theorem addBlock_retains {block : BlockRecord} (h : m.addBlock block = .ok m') : m.Retains m' := by
  obtain rfl := of_free h
  exact { Retains.refl m with blocks := (sublist_insertByNumber block m.blocks).map _ }

theorem setBlockId_retains (number : Int) (id : String) : m.Retains (m.setBlockId number id) := by
  have hsame : (m.setBlockId number id).blocks.map (·.unnamed) = m.blocks.map (·.unnamed) :=
    map_updateFirst m.blocks fun _ _ => rfl
  exact { Retains.refl m with blocks := hsame ▸ List.Sublist.refl _ }

theorem addTransaction_retains {tx : TransactionRecord} (h : m.addTransaction tx = .ok m') :
    m.Retains m' := by
  obtain rfl := of_free h
  exact { Retains.refl m with transactions := List.prefix_append _ _ }

theorem addOperation_retains {operation : OperationRecord}
    (h : m.addOperation operation = .ok m') : m.Retains m' := by
  obtain rfl := of_free h
  exact { Retains.refl m with operations := List.prefix_append _ _ }

theorem addTable_retains (name : String) (columns : List Column) (index : TableIndex) :
    m.Retains (m.addTable name columns index) := by
  unfold addTable
  split
  · exact Retains.refl m
  · refine { Retains.refl m with tables := ?_, table := fun other t ht => ⟨t, ?_, by simp⟩ }
    · rw [List.map_append]
      exact List.prefix_append _ _
    · simp only [table?, List.lookup_append] at ht ⊢
      rw [ht, Option.some_or]

theorem addRow_retains {name : String} {row : Row} (h : m.addRow name row = .ok m') :
    m.Retains m' := by
  obtain ⟨table, htable, rfl⟩ := of_addRow h
  refine { Retains.refl m with tables := ?_, table := fun other t ht => ?_ }
  · show _ <+: (putEntry name _ m.tables).map (·.1)
    rw [keys_putEntry]
    exact prefix_ite _ _
  · by_cases hname : other = name
    · subst hname
      obtain rfl : table = t := Option.some.inj (htable.symm.trans ht)
      exact ⟨_, lookup_putEntry_self _ _ _, rfl, rfl, List.prefix_append _ _⟩
    · exact ⟨t, (lookup_putEntry_of_ne _ _ hname).trans ht, by simp⟩

theorem addReceipt_retains {receipt : ReceiptRecord} {events : List EventRecord}
    (h : m.addReceipt receipt events = .ok m') : m.Retains m' := by
  obtain rfl := of_free h
  exact { Retains.refl m with
    receipts := List.prefix_append _ _, events := List.prefix_append _ _ }

theorem addAccount_retains {account : AccountRecord} (h : m.addAccount account = .ok m') :
    m.Retains m' := by
  obtain rfl := of_free h
  exact { Retains.refl m with accounts := List.prefix_append _ _ }

theorem addAsset_retains (asset : AssetRecord) : m.Retains (m.addAsset asset) := by
  unfold addAsset
  split
  · exact Retains.refl m
  · exact { Retains.refl m with assets := List.prefix_append _ _ }

/-- An asset that is added has been there, or is new under its id. -/
theorem ids_addAsset (asset : AssetRecord) :
    (m.addAsset asset).assets.map (·.id) =
      if m.assets.any (·.id == asset.id) then m.assets.map (·.id)
      else m.assets.map (·.id) ++ [asset.id] := by
  unfold addAsset
  split
  · rfl
  · rw [List.map_append, List.map_singleton]

/-- A balance that is set has been there, or is new under its key. -/
theorem keys_putBalance (balance : BalanceRecord) :
    (m.putBalance balance).balances.map (·.key) =
      if m.balances.any fun b => b.owner == balance.owner && b.asset == balance.asset then
        m.balances.map (·.key)
      else m.balances.map (·.key) ++ [balance.key] :=
  map_upsert balance m.balances fun _ _ => rfl

/-- Setting a balance leaves the others as they are. -/
theorem mem_putBalance {balance row : BalanceRecord}
    (h : row ∈ (m.putBalance balance).balances) : row ∈ m.balances ∨ row = balance := by
  refine mem_upsert h fun old hkey => ?_
  simp only [Bool.and_eq_true, beq_iff_eq] at hkey
  rw [hkey.1, hkey.2]

theorem putBalance_retains (balance : BalanceRecord) : m.Retains (m.putBalance balance) := by
  refine { Retains.refl m with balances := ?_ }
  rw [keys_putBalance]
  exact prefix_ite _ _

theorem addToken_retains {token : TokenRecord} (h : m.addToken token = .ok m') :
    m.Retains m' := by
  obtain rfl := of_free h
  refine { Retains.refl m with tokens := ?_ }
  rw [List.map_append]
  exact List.prefix_append _ _

/-- A token that is written anew keeps its id. -/
theorem ids_setToken (m : Memory) (token : TokenRecord) :
    (m.setToken token).tokens.map (·.id) = m.tokens.map (·.id) :=
  map_updateFirst m.tokens fun _ hid => (beq_iff_eq.1 hid).symm

theorem setToken_retains (token : TokenRecord) : m.Retains (m.setToken token) := by
  exact { Retains.refl m with tokens := ids_setToken m token ▸ List.prefix_refl _ }

/-- A balance that is set has been there, or is new under its key. -/
theorem keys_putHolding (balance : HoldingRecord) :
    (m.putHolding balance).holdings.map (·.key) =
      if m.holdings.any fun b => b.contract == balance.contract && b.owner == balance.owner then
        m.holdings.map (·.key)
      else m.holdings.map (·.key) ++ [balance.key] :=
  map_upsert balance m.holdings fun _ _ => rfl

/-- Setting a balance leaves the others as they are. -/
theorem mem_putHolding {balance row : HoldingRecord}
    (h : row ∈ (m.putHolding balance).holdings) : row ∈ m.holdings ∨ row = balance := by
  refine mem_upsert h fun old hkey => ?_
  simp only [Bool.and_eq_true, beq_iff_eq] at hkey
  rw [hkey.1, hkey.2]

theorem putHolding_retains (balance : HoldingRecord) : m.Retains (m.putHolding balance) := by
  refine { Retains.refl m with holdings := ?_ }
  rw [keys_putHolding]
  exact prefix_ite _ _

theorem addTransfer_retains {transfer : TransferRecord} (h : m.addTransfer transfer = .ok m') :
    m.Retains m' := by
  obtain rfl := of_free h
  exact { Retains.refl m with transfers := List.prefix_append _ _ }

theorem failInserts_retains (table : String) : m.Retains (m.failInserts table) :=
  { Retains.refl m with failing := List.suffix_cons _ _ }

end

/-- No request takes a record away or writes anew what is to stay. -/
theorem answer_retains (request : Request) (m : Memory) : m.Retains (answer request m).2 := by
  cases request with
  | putConfig key value => exact putConfig_retains key value
  | addBlock block => exact written_keeps (Retains.refl m) fun _ => addBlock_retains
  | setBlockId number id => exact setBlockId_retains number id
  | addTransaction tx => exact written_keeps (Retains.refl m) fun _ => addTransaction_retains
  | addOperation operation => exact written_keeps (Retains.refl m) fun _ => addOperation_retains
  | addTable table columns index => exact addTable_retains table columns index
  | columns => exact { Retains.refl m with columnQueries := Nat.le_succ _ }
  | hasRow =>
    simp only [answer]
    split <;> exact Retains.refl m
  | addRow table row => exact written_keeps (Retains.refl m) fun _ => addRow_retains
  | addReceipt receipt events => exact written_keeps (Retains.refl m) fun _ => addReceipt_retains
  | addAccount account => exact written_keeps (Retains.refl m) fun _ => addAccount_retains
  | addAsset asset => exact addAsset_retains asset
  | putBalance balance => exact putBalance_retains balance
  | addToken token => exact written_keeps (Retains.refl m) fun _ => addToken_retains
  | setToken token => exact setToken_retains token
  | putHolding balance => exact putHolding_retains balance
  | addTransfer transfer => exact written_keeps (Retains.refl m) fun _ => addTransfer_retains
  -- the other requests only read
  | config | block | transaction | operation | hasTable | hasReceipt | account | asset | balance
    | token | holding | transfer => exact Retains.refl m

end Memory

end Store

end ChainIndex
