import ChainIndex.Proofs.Growth
import ChainIndex.Proofs.Surroundings

/-!
# What a store tells of the chain

`indexed` is the part of a store that the chain alone decides: blocks, transactions, operations,
wide tables, receipts, events and accounts. `history` has the transfers on top, and the tokens
without what these say of themselves when they are asked.

`WellFormed` and `Sound` are the invariants of a store and of a scanner that works on one. Wide
tables have the columns by which their rows are recognised, and whatever a scanner remembers is in
the store.
-/

namespace ChainIndex

open Scan (Cache Situation)
open Store

/-- A token as its registration and its setting up describe it. -/
def TokenRecord.registered (token : TokenRecord) : TokenRecord :=
  { token with name := none, symbol := none, precision := none, totalSupply := none }

@[simp] theorem TokenRecord.registered_id (token : TokenRecord) :
    token.registered.id = token.id := rfl

namespace Store.Memory

/-- The part of a store that the chain alone decides. -/
def indexed (m : Memory) : Memory where
  blocks := m.blocks
  transactions := m.transactions
  operations := m.operations
  tables := m.tables
  receipts := m.receipts
  events := m.events
  accounts := m.accounts

/-- The part of a store that no answer about a balance, an asset or the state of a token decides. -/
def history (m : Memory) : Memory :=
  { m.indexed with
    transfers := m.transfers
    tokens := m.tokens.map (·.registered) }

@[simp] theorem indexed_history (m : Memory) : m.history.indexed = m.indexed := rfl

@[simp] theorem history_transaction? (m : Memory) (id : String) :
    m.history.transaction? id = m.transaction? id := rfl

@[simp] theorem history_operation? (m : Memory) (id : String) :
    m.history.operation? id = m.operation? id := rfl

@[simp] theorem history_transfer? (m : Memory) (transaction : String) (operation : Int) :
    m.history.transfer? transaction operation = m.transfer? transaction operation := rfl

@[simp] theorem history_token? (m : Memory) (id : String) :
    m.history.token? id = (m.token? id).map (·.registered) := by
  simp only [token?, history, List.find?_map]
  rfl

/-- The history of a store with a token written is the history with the token as it was
registered. -/
theorem history_setToken (m : Memory) (token : TokenRecord) :
    (m.setToken token).history = m.history.setToken token.registered := by
  have hmap : updateFirst (·.id == token.registered.id) (fun _ => token.registered)
        (m.tokens.map TokenRecord.registered) =
      (updateFirst (·.id == token.id) (fun _ => token) m.tokens).map TokenRecord.registered :=
    updateFirst_map TokenRecord.registered m.tokens (fun _ _ => rfl) (fun _ _ _ => rfl)
  simp only [setToken, history, indexed, hmap]

/-- Writing back a token that was found leaves the history as it is, whatever the token says of
itself now. -/
theorem history_setToken_of_found {m : Memory} {token token' : TokenRecord}
    (hfound : m.token? token.id = some token) (hsame : token'.registered = token.registered) :
    (m.setToken token').history = m.history := by
  have hid : token.registered.id = token.id := rfl
  have hfind : m.history.tokens.find? (·.id == token.registered.id) = some token.registered := by
    have := history_token? m token.id
    rw [hfound] at this
    exact this
  rw [history_setToken, hsame, setToken, updateFirst_eq_self hfind]

/-! ## Views

`indexed` and `history` are two views of a store. A write that the chain decides comes out the same
whether it is made in a view or seen through it.
-/

/-- The part of a store that the chain alone decides, with something of its transfers and its
tokens. -/
def view (transfers : List TransferRecord → List TransferRecord)
    (tokens : List TokenRecord → List TokenRecord) (m : Memory) : Memory :=
  { m.indexed with
    transfers := transfers m.transfers
    tokens := tokens m.tokens }

section

variable {transfers : List TransferRecord → List TransferRecord}
  {tokens : List TokenRecord → List TokenRecord}

theorem map_ite {c : Prop} [Decidable c] {e : Error} {m : Memory} {f : Memory → Memory} :
    Except.map f (if c then .error e else .ok m : Except Error Memory) =
      if c then .error e else .ok (f m) := by
  split <;> rfl

theorem history_eq_view : history = view id (·.map (·.registered)) := rfl

theorem view_addBlock (m : Memory) (record : BlockRecord) :
    (m.view transfers tokens).addBlock record =
      (m.addBlock record).map (view transfers tokens) := by
  unfold addBlock
  rw [map_ite]
  rfl

theorem view_addTransaction (m : Memory) (record : TransactionRecord) :
    (m.view transfers tokens).addTransaction record =
      (m.addTransaction record).map (view transfers tokens) := by
  unfold addTransaction
  rw [map_ite]
  rfl

theorem view_addOperation (m : Memory) (record : OperationRecord) :
    (m.view transfers tokens).addOperation record =
      (m.addOperation record).map (view transfers tokens) := by
  unfold addOperation
  rw [map_ite]
  rfl

theorem view_addReceipt (m : Memory) (record : ReceiptRecord) (events : List EventRecord) :
    (m.view transfers tokens).addReceipt record events =
      (m.addReceipt record events).map (view transfers tokens) := by
  unfold addReceipt
  rw [map_ite]
  rfl

theorem view_addAccount (m : Memory) (record : AccountRecord) :
    (m.view transfers tokens).addAccount record =
      (m.addAccount record).map (view transfers tokens) := by
  unfold addAccount
  rw [map_ite]
  rfl

theorem addTable_failing (m : Memory) (name : String) (columns : List Column)
    (index : TableIndex) : (m.addTable name columns index).failing = m.failing := by
  unfold addTable
  split <;> rfl

theorem view_addTable (m : Memory) (name : String) (columns : List Column) (index : TableIndex) :
    (m.view transfers tokens).addTable name columns index =
      (m.addTable name columns index).view transfers tokens := by
  unfold addTable
  rw [apply_ite (view transfers tokens)]
  rfl

theorem view_addRow {m : Memory} (hfailing : m.failing = []) (name : String) (row : Row) :
    (m.view transfers tokens).addRow name row =
      (m.addRow name row).map (view transfers tokens) := by
  have htable : (m.view transfers tokens).table? name = m.table? name := rfl
  unfold addRow
  rw [htable, hfailing]
  cases m.table? name with
  | none => rfl
  | some table =>
    cases hcell : row.find? fun cell => !table.columns.any (·.name == cell.1) with
    | none => simp only [hcell]; rfl
    | some cell => simp only [hcell]; rfl

end

/-! ## Invariants -/

/-- The columns by which a row of a wide table is recognised. -/
def HasPlace (columns : List Column) : Prop :=
  ⟨"txid", .text⟩ ∈ columns ∧ ⟨"index_in_tx", .bigInt⟩ ∈ columns

/-- An id that was made for the position of an operation, which fits its column. -/
def IsPlace (id : String) : Prop :=
  ∃ block transaction index, id = Scan.placeId block transaction index ∧ (index : Int) ≤ int32Max

/-- What holds of every store that scanners have written to. -/
structure WellFormed (m : Memory) : Prop where
  failing : m.failing = []
  tables : ∀ name t, m.table? name = some t → HasPlace t.columns
  operations : ∀ r ∈ m.operations, IsPlace r.id

theorem wellFormed_empty : Memory.empty.WellFormed where
  failing := rfl
  tables _ _ h := by simp [Memory.empty, table?] at h
  operations _ h := by simp [Memory.empty] at h

/-- Tables and operations are all that well-formedness looks at. -/
theorem WellFormed.congr {m m' : Memory} (h : m.WellFormed) (hfailing : m'.failing = m.failing)
    (htables : m'.tables = m.tables) (hoperations : m'.operations = m.operations) :
    m'.WellFormed where
  failing := hfailing.trans h.failing
  tables name t ht := h.tables name t (by rwa [table?, ← htables])
  operations r hr := h.operations r (hoperations ▸ hr)

theorem WellFormed.history {m : Memory} (h : m.WellFormed) : m.history.WellFormed where
  failing := rfl
  tables := h.tables
  operations := h.operations

theorem WellFormed.indexed {m : Memory} (h : m.WellFormed) : m.indexed.WellFormed where
  failing := rfl
  tables := h.tables
  operations := h.operations

theorem WellFormed.addTable {m : Memory} (h : m.WellFormed) {name : String}
    {columns : List Column} {index : TableIndex} (hplace : HasPlace columns) :
    (m.addTable name columns index).WellFormed := by
  unfold Memory.addTable
  split
  · exact h
  · refine { h with tables := fun other t ht => ?_ }
    simp only [table?, List.lookup_append, Option.or_eq_some_iff] at ht
    rcases ht with ht | ⟨-, ht⟩
    · exact h.tables other t ht
    · -- the only table that is new has the columns it was made with
      simp only [List.lookup_cons, List.lookup_nil] at ht
      split at ht
      · cases ht
        exact hplace
      · simp at ht

theorem WellFormed.addRow {m m' : Memory} (h : m.WellFormed) {name : String} {row : Row}
    (hadd : m.addRow name row = .ok m') : m'.WellFormed := by
  obtain ⟨table, htable, rfl⟩ := of_addRow hadd
  refine { h with tables := fun other t ht => ?_ }
  by_cases hname : other = name
  · subst hname
    simp only [table?, lookup_putEntry_self, Option.some.injEq] at ht
    subst ht
    exact h.tables other table htable
  · rw [table?, lookup_putEntry_of_ne _ _ hname] at ht
    exact h.tables other t ht

theorem WellFormed.addOperation {m m' : Memory} (h : m.WellFormed) {operation : OperationRecord}
    (hadd : m.addOperation operation = .ok m') (hplace : IsPlace operation.id) :
    m'.WellFormed := by
  obtain rfl := of_free hadd
  refine { h with operations := fun r hr => ?_ }
  rcases List.mem_append.1 hr with hr | hr
  · exact h.operations r hr
  · exact List.mem_singleton.1 hr ▸ hplace

end Store.Memory

/-- A request that scanners may make of a well-formed store. -/
def Store.Request.Proper : Store.Request → Prop
  | .addTable _ declared _ => Memory.HasPlace declared
  | .addOperation record => Memory.IsPlace record.id
  | _ => True

namespace Store.Memory

/-- A store stays well-formed under proper requests. -/
theorem answer_wellFormed {request : Request} {m : Memory} (h : m.WellFormed)
    (hproper : request.Proper) : (Memory.answer request m).2.WellFormed := by
  cases request with
  | addTable name columns index => exact h.addTable hproper
  | addRow table row => exact written_keeps h fun _ => h.addRow
  | addOperation operation => exact written_keeps h fun _ hadd => h.addOperation hadd hproper
  | addBlock | addTransaction | addReceipt | addAccount | addToken | addTransfer =>
    apply written_keeps h
    intro m' hadd
    rw [of_free hadd]
    exact h.congr rfl rfl rfl
  | addAsset asset =>
    simp only [answer, addAsset]
    split
    · exact h
    · exact h.congr rfl rfl rfl
  | hasRow table transaction index =>
    simp only [answer]
    split <;> exact h
  -- the other requests leave tables and operations alone
  | putConfig | setBlockId | columns | putBalance | setToken | putHolding =>
    exact h.congr rfl rfl rfl
  | config | block | transaction | operation | hasTable | hasReceipt | account | asset | balance
    | token | holding | transfer => exact h

end Store.Memory

namespace Scan

variable {ω : Type}

/-- What holds of every scanner and the store that it works on. -/
structure Sound (s : Situation ω) : Prop where
  memory : s.memory.WellFormed
  columns : ∀ table known, s.cache.columns.lookup table = some known →
    ∃ t, s.memory.table? table = some t ∧ t.columns = known
  tokens : ∀ contract ∈ s.cache.tokens, (s.memory.token? contract).isSome

/-- A new scanner remembers nothing, so that nothing of it can be wrong. -/
theorem sound_of_wellFormed {m : Memory} (h : m.WellFormed) (world : ω) :
    Sound (⟨world, m, Cache.empty⟩ : Situation ω) where
  memory := h
  columns _ _ hknown := by simp [Cache.empty] at hknown
  tokens _ hknown := by simp [Cache.empty] at hknown

/-- What a scanner remembers stays true while the store grows. -/
theorem Sound.grow {s : Situation ω} (h : Sound s) {m : Memory} (hm : m.WellFormed)
    (hgrows : s.memory.Grows m) (world : ω) : Sound ⟨world, m, s.cache⟩ where
  memory := hm
  columns table known hknown := by
    obtain ⟨t, ht, hcolumns⟩ := h.columns table known hknown
    obtain ⟨t', ht', hsame, -⟩ := hgrows.table table t ht
    exact ⟨t', ht', hsame.trans hcolumns⟩
  tokens contract hknown := hgrows.token contract (h.tokens contract hknown)

theorem Sound.withWorld {s : Situation ω} (h : Sound s) (world : ω) :
    Sound { s with world } :=
  h.grow h.memory (.refl _) world

/-- Whatever a scanner asks, nothing is taken from the store. -/
theorem Surroundings.answer_grows (env : Surroundings ω) (request : Request) (s : Situation ω) :
    s.memory.Grows (env.answer request s).2.memory := by
  cases request with
  | store request =>
    obtain ⟨detail, world, hstore⟩ | ⟨world, hstore⟩ := env.answer_store_cases request s
    · rw [hstore]
      exact Memory.Grows.refl _
    · rw [hstore]
      exact Memory.answer_grows request s.memory
  | node request => exact Memory.Grows.refl _
  | cache request => exact Memory.Grows.refl _
  | cancelled => exact Memory.Grows.refl _

/-- The part of the store that a request of a scanner can write to. -/
def Request.target? : Request → Option Part
  | .store request => request.target?
  | _ => none

/-- Whatever a scanner asks, it leaves the parts of the store that the request cannot write to. -/
theorem Surroundings.answer_same (env : Surroundings ω) {request : Request} {part : Part}
    (h : request.target? ≠ some part) (s : Situation ω) :
    part.Same s.memory (env.answer request s).2.memory := by
  cases request with
  | store request =>
    obtain ⟨detail, world, hstore⟩ | ⟨world, hstore⟩ := env.answer_store_cases request s
    · rw [hstore]
      exact Part.Same.refl part _
    · rw [hstore]
      exact Memory.answer_same h s.memory
  | node request => exact Part.Same.refl part _
  | cache request => exact Part.Same.refl part _
  | cancelled => exact Part.Same.refl part _

/-- A proper request leaves everything sound. -/
theorem Sound.answer {s : Situation ω} (h : Sound s) {request : Store.Request}
    (hproper : request.Proper) (world : ω) :
    Sound ⟨world, (Memory.answer request s.memory).2, s.cache⟩ :=
  h.grow (Memory.answer_wellFormed h.memory hproper) (Memory.answer_grows request s.memory) world

end Scan

end ChainIndex
