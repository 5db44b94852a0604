import ChainIndex.Proofs.Growth

/-!
# A store under any calls

Whatever is asked of a store in memory, and in whatever order, no two records of a list have the
same key, and every row of a wide table uses the columns of its table. What has been inserted under
a key is found there from then on, and a request that fails leaves the store as it was.
-/

namespace ChainIndex.Store

/-! ## Calls -/

/-- What can be done to a store in memory. -/
inductive Call where
  | request (request : Request)
  /-- Let every later insert into a wide table fail. -/
  | failInserts (table : String)

/-- The store after a call. -/
def Call.make : Call → Memory → Memory
  | .request asked, m => (Memory.answer asked m).2
  | .failInserts table, m => m.failInserts table

/-- The store after calls that were made on a store. -/
def Memory.afterAll (m : Memory) (calls : List Call) : Memory :=
  calls.foldl (fun m call => call.make m) m

/-- The store after calls that were made on an empty one. -/
def made (calls : List Call) : Memory := Memory.empty.afterAll calls

/-! ## Order -/

/-- Every list has one record of a key, and every row uses columns of its table. -/
structure Memory.Orderly (m : Memory) : Prop where
  configs : (m.configs.map (·.1)).Nodup
  blocks : m.blocks.Pairwise (·.number < ·.number)
  transactions : (m.transactions.map (·.id)).Nodup
  operations : (m.operations.map (·.id)).Nodup
  tables : (m.tables.map (·.1)).Nodup
  cells : ∀ name t, m.table? name = some t →
    ∀ row ∈ t.rows, ∀ cell ∈ row, ∃ column ∈ t.columns, column.name = cell.1
  receipts : (m.receipts.map (·.place)).Nodup
  accounts : (m.accounts.map (·.owner)).Nodup
  assets : (m.assets.map (·.id)).Nodup
  balances : (m.balances.map (·.key)).Nodup
  tokens : (m.tokens.map (·.id)).Nodup
  holdings : (m.holdings.map (·.key)).Nodup
  transfers : (m.transfers.map (·.place)).Nodup

namespace Memory

theorem orderly_empty : empty.Orderly where
  configs := List.nodup_nil
  blocks := List.Pairwise.nil
  transactions := List.nodup_nil
  operations := List.nodup_nil
  tables := List.nodup_nil
  cells _ _ h := by cases h
  receipts := List.nodup_nil
  accounts := List.nodup_nil
  assets := List.nodup_nil
  balances := List.nodup_nil
  tokens := List.nodup_nil
  holdings := List.nodup_nil
  transfers := List.nodup_nil

section

variable {m m' : Memory}

/-- Where no record is found to have a property, none that has it is there. -/
theorem ne_of_not_any {α κ : Type} {p : α → Bool} {key : α → κ} {k : κ} {l : List α}
    (hp : ∀ a, key a = k → p a) (h : ¬l.any p) : ∀ a ∈ l, key a ≠ k :=
  fun a ha hkey => h (List.any_eq_true.2 ⟨a, ha, hp a hkey⟩)

theorem putConfig_orderly (hm : m.Orderly) (key value : String) :
    (m.putConfig key value).Orderly := by
  refine { hm with configs := ?_ }
  show ((putEntry key value m.configs).map (·.1)).Nodup
  rw [keys_putEntry]
  exact nodup_ite hm.configs id

theorem addBlock_orderly (hm : m.Orderly) {block : BlockRecord}
    (h : m.addBlock block = .ok m') : m'.Orderly := by
  obtain ⟨hfree, rfl⟩ := of_guard h
  exact { hm with
    blocks := ascending_insertByNumber hm.blocks (ne_of_not_any (by simp) hfree) }

/-- A block that is given an id keeps its number. -/
theorem setBlockId_orderly (hm : m.Orderly) (number : Int) (id : String) :
    (m.setBlockId number id).Orderly := by
  have hnumbers : (m.setBlockId number id).blocks.map (·.number) = m.blocks.map (·.number) :=
    map_updateFirst m.blocks fun _ _ => rfl
  refine { hm with blocks := ?_ }
  have hpairwise := List.pairwise_map.2 hm.blocks
  rw [← hnumbers] at hpairwise
  exact List.pairwise_map.1 hpairwise

theorem addTransaction_orderly (hm : m.Orderly) {tx : TransactionRecord}
    (h : m.addTransaction tx = .ok m') : m'.Orderly := by
  obtain ⟨hfree, rfl⟩ := of_guard h
  exact { hm with
    transactions := nodup_concat hm.transactions (ne_of_not_any (by simp) hfree) }

theorem addOperation_orderly (hm : m.Orderly) {operation : OperationRecord}
    (h : m.addOperation operation = .ok m') : m'.Orderly := by
  obtain ⟨hfree, rfl⟩ := of_guard h
  exact { hm with operations := nodup_concat hm.operations (ne_of_not_any (by simp) hfree) }

/-- A table that is made has no rows yet. -/
theorem addTable_orderly (hm : m.Orderly) (name : String) (columns : List Column)
    (index : TableIndex) : (m.addTable name columns index).Orderly := by
  unfold addTable
  split
  · exact hm
  · rename_i hnone
    rw [Bool.not_eq_true, Option.isSome_eq_false_iff, Option.isNone_iff_eq_none] at hnone
    refine { hm with tables := ?_, cells := fun other t ht row hrow => ?_ }
    · refine nodup_concat hm.tables fun entry hentry hname => ?_
      have hne := List.lookup_eq_none_iff.1 hnone entry hentry
      simp [hname] at hne
    · simp only [table?, List.lookup_append, Option.or_eq_some_iff] at ht
      rcases ht with ht | ⟨-, ht⟩
      · exact hm.cells other t ht row hrow
      · rw [List.lookup_cons] at ht
        split at ht
        · cases ht
          cases hrow
        · cases ht

/-- A row is added to a table that has its columns. -/
theorem addRow_orderly (hm : m.Orderly) {name : String} {row : Row}
    (h : m.addRow name row = .ok m') : m'.Orderly := by
  obtain ⟨table, htable, rfl⟩ := of_addRow h
  refine { hm with tables := ?_, cells := fun other t ht r hr => ?_ }
  · show ((putEntry name _ m.tables).map (·.1)).Nodup
    rw [keys_putEntry]
    exact nodup_ite hm.tables id
  · by_cases hname : other = name
    · subst hname
      obtain rfl := Option.some.inj ((lookup_putEntry_self _ _ _).symm.trans ht)
      rcases List.mem_append.1 hr with hr | hr
      · exact hm.cells other table htable r hr
      · rw [List.mem_singleton.1 hr]
        exact fun cell hcell => columns_of_addRow h htable cell hcell
    · exact hm.cells other t ((lookup_putEntry_of_ne _ _ hname).symm.trans ht) r hr

theorem addReceipt_orderly (hm : m.Orderly) {receipt : ReceiptRecord} {events : List EventRecord}
    (h : m.addReceipt receipt events = .ok m') : m'.Orderly := by
  obtain ⟨hfree, rfl⟩ := of_guard h
  refine { hm with receipts := nodup_concat hm.receipts (ne_of_not_any ?_ hfree) }
  simp [ReceiptRecord.place]

theorem addAccount_orderly (hm : m.Orderly) {account : AccountRecord}
    (h : m.addAccount account = .ok m') : m'.Orderly := by
  obtain ⟨hfree, rfl⟩ := of_guard h
  exact { hm with accounts := nodup_concat hm.accounts (ne_of_not_any (by simp) hfree) }

theorem addAsset_orderly (hm : m.Orderly) (asset : AssetRecord) : (m.addAsset asset).Orderly := by
  unfold addAsset
  split
  · exact hm
  · rename_i hfree
    exact { hm with assets := nodup_concat hm.assets (ne_of_not_any (by simp) hfree) }

theorem nodup_keys_putBalance (hm : (m.balances.map (·.key)).Nodup) (balance : BalanceRecord) :
    ((m.putBalance balance).balances.map (·.key)).Nodup := by
  rw [keys_putBalance]
  refine nodup_ite hm fun hfree hmem => ?_
  obtain ⟨b, hb, hkey⟩ := List.mem_map.1 hmem
  exact ne_of_not_any (by simp [BalanceRecord.key]) hfree b hb hkey

theorem putBalance_orderly (hm : m.Orderly) (balance : BalanceRecord) :
    (m.putBalance balance).Orderly :=
  { hm with balances := nodup_keys_putBalance hm.balances balance }

theorem addToken_orderly (hm : m.Orderly) {token : TokenRecord}
    (h : m.addToken token = .ok m') : m'.Orderly := by
  obtain ⟨hfree, rfl⟩ := of_guard h
  exact { hm with tokens := nodup_concat hm.tokens (ne_of_not_any (by simp) hfree) }

theorem setToken_orderly (hm : m.Orderly) (token : TokenRecord) : (m.setToken token).Orderly := by
  refine { hm with tokens := ?_ }
  rw [ids_setToken]
  exact hm.tokens

theorem nodup_keys_putHolding (hm : (m.holdings.map (·.key)).Nodup) (balance : HoldingRecord) :
    ((m.putHolding balance).holdings.map (·.key)).Nodup := by
  rw [keys_putHolding]
  refine nodup_ite hm fun hfree hmem => ?_
  obtain ⟨b, hb, hkey⟩ := List.mem_map.1 hmem
  exact ne_of_not_any (by simp [HoldingRecord.key]) hfree b hb hkey

theorem putHolding_orderly (hm : m.Orderly) (balance : HoldingRecord) :
    (m.putHolding balance).Orderly :=
  { hm with holdings := nodup_keys_putHolding hm.holdings balance }

theorem addTransfer_orderly (hm : m.Orderly) {transfer : TransferRecord}
    (h : m.addTransfer transfer = .ok m') : m'.Orderly := by
  obtain ⟨hfree, rfl⟩ := of_guard h
  refine { hm with transfers := nodup_concat hm.transfers (ne_of_not_any ?_ hfree) }
  simp [TransferRecord.place]

end

/-- Every request keeps a store orderly. -/
theorem answer_orderly {m : Memory} (hm : m.Orderly) (request : Request) :
    (answer request m).2.Orderly := by
  cases request with
  | putConfig key value => exact putConfig_orderly hm key value
  | addBlock block => exact written_keeps hm fun _ => addBlock_orderly hm
  | setBlockId number id => exact setBlockId_orderly hm number id
  | addTransaction tx => exact written_keeps hm fun _ => addTransaction_orderly hm
  | addOperation operation => exact written_keeps hm fun _ => addOperation_orderly hm
  | addTable table columns index => exact addTable_orderly hm table columns index
  | columns => exact { hm with }
  | hasRow =>
    simp only [answer]
    split <;> exact hm
  | addRow table row => exact written_keeps hm fun _ => addRow_orderly hm
  | addReceipt receipt events => exact written_keeps hm fun _ => addReceipt_orderly hm
  | addAccount account => exact written_keeps hm fun _ => addAccount_orderly hm
  | addAsset asset => exact addAsset_orderly hm asset
  | putBalance balance => exact putBalance_orderly hm balance
  | addToken token => exact written_keeps hm fun _ => addToken_orderly hm
  | setToken token => exact setToken_orderly hm token
  | putHolding balance => exact putHolding_orderly hm balance
  | addTransfer transfer => exact written_keeps hm fun _ => addTransfer_orderly hm
  -- the other requests only read
  | config | block | transaction | operation | hasTable | hasReceipt | account | asset | balance
    | token | holding | transfer => exact hm

/-! ## Runs of calls -/

/-- What every call keeps is kept by all of them. -/
theorem afterAll_keeps {P : Memory → Prop} (hstep : ∀ m (call : Call), P m → P (call.make m))
    {m : Memory} (hm : P m) (calls : List Call) : P (m.afterAll calls) := by
  induction calls generalizing m with
  | nil => exact hm
  | cons call rest ih => exact ih (hstep m call hm)

theorem afterAll_append (m : Memory) (calls later : List Call) :
    m.afterAll (calls ++ later) = (m.afterAll calls).afterAll later :=
  List.foldl_append

theorem afterAll_orderly {m : Memory} (hm : m.Orderly) (calls : List Call) :
    (m.afterAll calls).Orderly := by
  refine afterAll_keeps (fun m call hm => ?_) hm calls
  cases call with
  | request request => exact answer_orderly hm request
  | failInserts table => exact { hm with }

theorem afterAll_retains (m : Memory) (calls : List Call) : m.Retains (m.afterAll calls) := by
  refine afterAll_keeps (fun m' call hm => hm.trans ?_) (Retains.refl m) calls
  cases call with
  | request request => exact answer_retains request m'
  | failInserts table => exact failInserts_retains table

end Memory

/-! ## Finds -/

/-- What can be looked for in a store. -/
inductive Key where
  | config (key : String)
  | block (number : Int)
  | transaction (id : String)
  | operation (id : String)
  | table (name : String)
  | row (table transaction : String) (index : Int)
  | receipt (transaction : String) (operation : Int)
  | account (owner : String)
  | asset (id : String)
  | balance (owner asset : String)
  | token (id : String)
  | holding (contract owner : String)
  | transfer (transaction : String) (operation : Int)

/-- A request inserts something under a key. -/
inductive Request.Inserts : Request → Key → Prop
  | config (key value : String) : Inserts (.putConfig key value) (.config key)
  | block (block : BlockRecord) : Inserts (.addBlock block) (.block block.number)
  | transaction (tx : TransactionRecord) : Inserts (.addTransaction tx) (.transaction tx.id)
  | operation (operation : OperationRecord) :
    Inserts (.addOperation operation) (.operation operation.id)
  | table (name : String) (columns : List Column) (index : TableIndex) :
    Inserts (.addTable name columns index) (.table name)
  | row (table : String) (row : Row) (transaction : String) (index : Int)
    (hat : Memory.isAt transaction index row) :
    Inserts (.addRow table row) (.row table transaction index)
  | receipt (receipt : ReceiptRecord) (events : List EventRecord) :
    Inserts (.addReceipt receipt events) (.receipt receipt.transaction receipt.operation)
  | account (account : AccountRecord) : Inserts (.addAccount account) (.account account.owner)
  | asset (asset : AssetRecord) : Inserts (.addAsset asset) (.asset asset.id)
  | balance (balance : BalanceRecord) :
    Inserts (.putBalance balance) (.balance balance.owner balance.asset)
  | token (token : TokenRecord) : Inserts (.addToken token) (.token token.id)
  | holding (balance : HoldingRecord) :
    Inserts (.putHolding balance) (.holding balance.contract balance.owner)
  | transfer (transfer : TransferRecord) :
    Inserts (.addTransfer transfer) (.transfer transfer.transaction transfer.operation)

/-- The request that looks for a key. -/
@[reducible] def findOf : Key → Request
  | .config key => .config key
  | .block number => .block number
  | .transaction id => .transaction id
  | .operation id => .operation id
  | .table name => .hasTable name
  | .row table transaction index => .hasRow table transaction index
  | .receipt transaction operation => .hasReceipt transaction operation
  | .account owner => .account owner
  | .asset id => .asset id
  | .balance owner asset => .balance owner asset
  | .token id => .token id
  | .holding contract owner => .holding contract owner
  | .transfer transaction operation => .transfer transaction operation

/-- The reply to the request that looks for a key is a record that has it. -/
def Found : (key : Key) → (findOf key).Result → Prop
  | .config _, reply => reply.isSome
  | .block number, reply => ∃ block, reply = some block ∧ block.number = number
  | .transaction id, reply => ∃ tx, reply = some tx ∧ tx.id = id
  | .operation id, reply => ∃ operation, reply = some operation ∧ operation.id = id
  | .table _, reply => reply = true
  | .row _ _ _, reply => reply = true
  | .receipt _ _, reply => reply = true
  | .account owner, reply => ∃ account, reply = some account ∧ account.owner = owner
  | .asset id, reply => ∃ asset, reply = some asset ∧ asset.id = id
  | .balance owner asset, reply => ∃ balance, reply = some balance ∧ balance.key = (owner, asset)
  | .token id, reply => ∃ token, reply = some token ∧ token.id = id
  | .holding contract owner, reply =>
    ∃ balance, reply = some balance ∧ balance.key = (contract, owner)
  | .transfer transaction operation, reply =>
    ∃ transfer, reply = some transfer ∧ transfer.place = (transaction, operation)

namespace Memory

/-- Something lies under a key. -/
def Holds (m : Memory) : Key → Prop
  | .config key => key ∈ m.configs.map (·.1)
  | .block number => number ∈ m.blocks.map (·.number)
  | .transaction id => id ∈ m.transactions.map (·.id)
  | .operation id => id ∈ m.operations.map (·.id)
  | .table name => (m.table? name).isSome
  | .row table transaction index =>
    ∃ t, m.table? table = some t ∧ ∃ row ∈ t.rows, isAt transaction index row
  | .receipt transaction operation => (transaction, operation) ∈ m.receipts.map (·.place)
  | .account owner => owner ∈ m.accounts.map (·.owner)
  | .asset id => id ∈ m.assets.map (·.id)
  | .balance owner asset => (owner, asset) ∈ m.balances.map (·.key)
  | .token id => id ∈ m.tokens.map (·.id)
  | .holding contract owner => (contract, owner) ∈ m.holdings.map (·.key)
  | .transfer transaction operation => (transaction, operation) ∈ m.transfers.map (·.place)

/-- What lies under a key lies there in every later store. -/
theorem Retains.holds {m m' : Memory} (h : m.Retains m') {key : Key} (hkey : m.Holds key) :
    m'.Holds key := by
  cases key with
  | config => exact h.configs.subset hkey
  | block => exact h.numbers.subset hkey
  | transaction => exact (h.transactions.map _).subset hkey
  | operation => exact (h.operations.map _).subset hkey
  | table name =>
    obtain ⟨t, ht⟩ := Option.isSome_iff_exists.1 hkey
    obtain ⟨t', ht', -⟩ := h.table name t ht
    exact Option.isSome_iff_exists.2 ⟨t', ht'⟩
  | row table =>
    obtain ⟨t, ht, row, hrow, hat⟩ := hkey
    obtain ⟨t', ht', hkept⟩ := h.table table t ht
    exact ⟨t', ht', row, hkept.rows.subset hrow, hat⟩
  | receipt => exact (h.receipts.map _).subset hkey
  | account => exact (h.accounts.map _).subset hkey
  | asset => exact (h.assets.map _).subset hkey
  | balance => exact h.balances.subset hkey
  | token => exact h.tokens.subset hkey
  | holding => exact h.holdings.subset hkey
  | transfer => exact (h.transfers.map _).subset hkey

section

variable {m : Memory}

/-- What holds of a store however a write has made it holds after the write that succeeds. -/
theorem holds_of_written {r : Except Error Memory} {u : Unit} {key : Key}
    (hok : (m.written r).1 = .ok u) (h : ∀ m', r = .ok m' → m'.Holds key) :
    (m.written r).2.Holds key :=
  h _ (of_written hok)

/-- The key of a record that is added at the end is among the keys. -/
theorem key_mem_concat {α κ : Type} (key : α → κ) (l : List α) (a : α) :
    key a ∈ (l ++ [a]).map key :=
  List.mem_map_of_mem (List.mem_append_right l (List.mem_singleton_self a))

/-- The key of a record that has been there, or is added, is among the keys. -/
theorem mem_ite_concat {α κ : Type} {key : α → κ} {p : α → Bool} {k : κ} {l : List α}
    (hp : ∀ a, p a → key a = k) : k ∈ if l.any p then l.map key else l.map key ++ [k] := by
  split
  · rename_i hthere
    obtain ⟨a, ha, hpa⟩ := List.any_eq_true.1 hthere
    exact List.mem_map.2 ⟨a, ha, hp a hpa⟩
  · exact List.mem_append_right _ (List.mem_singleton_self k)

/-- What a request inserts lies under its key. -/
theorem holds_of_inserts {insert : Request} {key : Key} (h : insert.Inserts key)
    {done : insert.Result} (hok : (answer insert m).1 = .ok done) :
    (answer insert m).2.Holds key := by
  cases h with
  | config key value =>
    show key ∈ (putEntry key value m.configs).map (·.1)
    rw [keys_putEntry]
    split
    · assumption
    · exact List.mem_append_right _ (List.mem_singleton_self key)
  | block block =>
    refine holds_of_written hok fun m' hadd => ?_
    rw [of_free hadd]
    exact List.mem_map_of_mem (mem_insertByNumber.2 (.inl rfl))
  | transaction tx =>
    refine holds_of_written hok fun m' hadd => ?_
    rw [of_free hadd]
    exact key_mem_concat _ _ tx
  | operation operation =>
    refine holds_of_written hok fun m' hadd => ?_
    rw [of_free hadd]
    exact key_mem_concat _ _ operation
  | table name columns index => exact table?_addTable m name columns index
  | row table row transaction index hat =>
    refine holds_of_written hok fun m' hadd => ?_
    obtain ⟨t, -, rfl⟩ := of_addRow hadd
    exact ⟨_, lookup_putEntry_self _ _ _, row, List.mem_append_right _ (by simp), hat⟩
  | receipt receipt events =>
    refine holds_of_written hok fun m' hadd => ?_
    rw [of_free hadd]
    exact key_mem_concat _ _ receipt
  | account account =>
    refine holds_of_written hok fun m' hadd => ?_
    rw [of_free hadd]
    exact key_mem_concat _ _ account
  | asset asset =>
    show asset.id ∈ (m.addAsset asset).assets.map (·.id)
    rw [ids_addAsset]
    exact mem_ite_concat (by simp)
  | balance balance =>
    show balance.key ∈ (m.putBalance balance).balances.map (·.key)
    rw [keys_putBalance]
    exact mem_ite_concat (by simp [BalanceRecord.key])
  | token token =>
    refine holds_of_written hok fun m' hadd => ?_
    rw [of_free hadd]
    exact key_mem_concat _ _ token
  | holding balance =>
    show balance.key ∈ (m.putHolding balance).holdings.map (·.key)
    rw [keys_putHolding]
    exact mem_ite_concat (by simp [HoldingRecord.key])
  | transfer transfer =>
    refine holds_of_written hok fun m' hadd => ?_
    rw [of_free hadd]
    exact key_mem_concat _ _ transfer

/-- A record is found by a property that its key alone decides, if there is one of that key. -/
theorem find?_of_mem_keys {α κ : Type} {p : α → Bool} {key : α → κ} {k : κ} {l : List α}
    (hp : ∀ a, p a ↔ key a = k) (h : k ∈ l.map key) : ∃ a, l.find? p = some a ∧ key a = k := by
  obtain ⟨a, ha, hkey⟩ := List.mem_map.1 h
  obtain ⟨b, hb⟩ := Option.isSome_iff_exists.1 (List.find?_isSome.2 ⟨a, ha, (hp a).2 hkey⟩)
  exact ⟨b, hb, (hp b).1 (List.find?_some hb)⟩

/-- What lies under a key is found. -/
theorem found_of_holds {key : Key} (h : m.Holds key) :
    ∃ reply, (answer (findOf key) m).1 = .ok reply ∧ Found key reply := by
  cases key with
  | config key =>
    refine ⟨_, rfl, ?_⟩
    show (m.configs.lookup key).isSome
    rw [Option.isSome_iff_ne_none]
    intro hnone
    obtain ⟨entry, hentry, hkey⟩ := List.mem_map.1 h
    have hne := List.lookup_eq_none_iff.1 hnone entry hentry
    simp [hkey] at hne
  | block => exact ⟨_, rfl, find?_of_mem_keys (by simp) h⟩
  | transaction => exact ⟨_, rfl, find?_of_mem_keys (by simp) h⟩
  | operation => exact ⟨_, rfl, find?_of_mem_keys (by simp) h⟩
  | table => exact ⟨_, rfl, h⟩
  | row table transaction index =>
    obtain ⟨t, ht, row, hrow, hat⟩ := h
    refine ⟨true, ?_, rfl⟩
    simp only [answer, ht]
    exact congrArg _ (List.any_eq_true.2 ⟨row, hrow, hat⟩)
  | receipt => exact ⟨_, rfl, hasReceipt_iff.2 h⟩
  | account => exact ⟨_, rfl, find?_of_mem_keys (by simp) h⟩
  | asset => exact ⟨_, rfl, find?_of_mem_keys (by simp) h⟩
  | balance => exact ⟨_, rfl, find?_of_mem_keys (by simp [BalanceRecord.key]) h⟩
  | token => exact ⟨_, rfl, find?_of_mem_keys (by simp) h⟩
  | holding => exact ⟨_, rfl, find?_of_mem_keys (by simp [HoldingRecord.key]) h⟩
  | transfer => exact ⟨_, rfl, find?_of_mem_keys (by simp [TransferRecord.place]) h⟩

end

end Memory

open Memory (answer)

/-- Whatever calls are made, a store has one record of a key and no cell without a column, it
retains what it has, it finds what was inserted, and a request that fails changes nothing. -/
theorem store_keeps_order (calls : List Call) :
    (made calls).Orderly ∧
      (∀ later, (made calls).Retains (made (calls ++ later))) ∧
      (∀ (insert : Request) (key : Key) (done : insert.Result), insert.Inserts key →
        (answer insert (made calls)).1 = .ok done →
        ∀ later, ∃ reply,
          (answer (findOf key) (made (calls ++ .request insert :: later))).1 = .ok reply ∧
            Found key reply) ∧
      ∀ (request : Request) (e : Error), (answer request (made calls)).1 = .error e →
        (answer request (made calls)).2 = made calls := by
  refine ⟨Memory.afterAll_orderly Memory.orderly_empty calls, fun later => ?_, ?_, ?_⟩
  · rw [made, made, Memory.afterAll_append]
    exact Memory.afterAll_retains _ later
  · intro insert key done hinserts hok later
    rw [made, Memory.afterAll_append]
    have hholds : (answer insert (made calls)).2.Holds key := Memory.holds_of_inserts hinserts hok
    exact Memory.found_of_holds ((Memory.afterAll_retains _ later).holds hholds)
  · intro request e herror
    exact Memory.answer_of_error (Prod.ext herror rfl)

/-- A wide table without rows. -/
def newTable : List Call :=
  [.request (.addTable "op_transfer" [⟨"txid", .text⟩, ⟨"index_in_tx", .bigInt⟩] ⟨"place_idx", []⟩)]

/-- A row at the first place of a transaction. -/
def firstRow : Row := [("txid", .text (some "tx")), ("index_in_tx", .bigInt (some 0))]

theorem row_outlives_broken_table :
    (∃ reply, (answer (.hasRow "op_transfer" "tx" 0) (made (newTable ++
        .request (.addRow "op_transfer" firstRow) :: [.failInserts "op_transfer"]))).1 = .ok reply ∧
      reply = true) ∧
      (answer (.addRow "op_transfer" firstRow)
          (made (newTable ++ [.failInserts "op_transfer"]))).2 =
        made (newTable ++ [.failInserts "op_transfer"]) := by
  obtain ⟨-, -, hfound, -⟩ := store_keeps_order newTable
  obtain ⟨-, -, -, hfailed⟩ := store_keeps_order (newTable ++ [.failInserts "op_transfer"])
  refine ⟨?_, hfailed _ (Memory.failedInsert "op_transfer") rfl⟩
  exact hfound _ (.row "op_transfer" "tx" 0) () (.row _ _ _ _ (by decide)) rfl _

end ChainIndex.Store
