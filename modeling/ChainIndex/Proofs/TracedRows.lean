import ChainIndex.Proofs.TokenWrites
import ChainIndex.Proofs.TransferHistory

/-!
# Rows that can be traced

Balances in tokens and the history of transfers come from events, the balances of addresses from
assets. A row is traced if what it comes from is known: a stored token and an event of an operation
that the node has told of, or a stored asset. A scanner is traced if its rows are, the assets and
tokens that it remembers are stored ones, and no precision is negative. What a request writes keeps
this if it is warranted by what is stored before.
-/

namespace ChainIndex

open Store (Memory)

/-! ## What a request can add -/

namespace Store.Memory

variable {m : Memory} {request : Store.Request}

/-- A write that succeeds adds one record to a list. -/
theorem of_mem_written {α : Type} {list : Memory → List α} (added : α) {r : Except Error Memory}
    {a : α} (h : a ∈ list (m.written r).2)
    (hadd : ∀ m', r = .ok m' → list m' = list m ++ [added]) : a ∈ list m ∨ a = added := by
  cases r with
  | error e => exact .inl h
  | ok m' =>
    have hmem : a ∈ list m' := h
    rw [hadd m' rfl] at hmem
    exact (List.mem_append.1 hmem).imp_right List.mem_singleton.1

theorem of_mem_operations {row : OperationRecord}
    (h : row ∈ (Memory.answer request m).2.operations) :
    row ∈ m.operations ∨ request = .addOperation row := by
  by_cases htarget : request.target? = some .operations
  · cases request with
    | addOperation added =>
      have hadded : row ∈ m.operations ∨ row = added :=
        of_mem_written added h fun m' hadd => by rw [of_free hadd]
      exact hadded.imp_right fun hrow => by rw [hrow]
    | _ => cases htarget
  · have hsame : (Memory.answer request m).2.operations = m.operations :=
      Memory.answer_same htarget m
    exact .inl (hsame ▸ h)

theorem of_mem_holdings {row : HoldingRecord} (h : row ∈ (Memory.answer request m).2.holdings) :
    row ∈ m.holdings ∨ request = .putHolding row := by
  by_cases htarget : request.target? = some .holdings
  · cases request <;> cases htarget
    exact (mem_putHolding h).imp_right fun hrow => by rw [hrow]
  · have hsame : (Memory.answer request m).2.holdings = m.holdings :=
      Memory.answer_same htarget m
    exact .inl (hsame ▸ h)

theorem of_mem_balances {row : BalanceRecord} (h : row ∈ (Memory.answer request m).2.balances) :
    row ∈ m.balances ∨ request = .putBalance row := by
  by_cases htarget : request.target? = some .balances
  · cases request <;> cases htarget
    exact (mem_putBalance h).imp_right fun hrow => by rw [hrow]
  · have hsame : (Memory.answer request m).2.balances = m.balances :=
      Memory.answer_same htarget m
    exact .inl (hsame ▸ h)

theorem of_mem_transfers {row : TransferRecord} (h : row ∈ (Memory.answer request m).2.transfers) :
    row ∈ m.transfers ∨ request = .addTransfer row := by
  by_cases htarget : request.target? = some .transfers
  · cases request with
    | addTransfer added =>
      have hadded : row ∈ m.transfers ∨ row = added :=
        of_mem_written added h fun m' hadd => by rw [of_free hadd]
      exact hadded.imp_right fun hrow => by rw [hrow]
    | _ => cases htarget
  · have hsame : (Memory.answer request m).2.transfers = m.transfers :=
      Memory.answer_same htarget m
    exact .inl (hsame ▸ h)

theorem of_mem_assets {asset : AssetRecord} (h : asset ∈ (Memory.answer request m).2.assets) :
    asset ∈ m.assets ∨ request = .addAsset asset := by
  by_cases htarget : request.target? = some .assets
  · cases request <;> cases htarget
    simp only [Memory.answer, addAsset] at h
    split at h
    · exact .inl h
    · exact (List.mem_append.1 h).imp_right fun hasset => by rw [List.mem_singleton.1 hasset]
  · have hsame : (Memory.answer request m).2.assets = m.assets := Memory.answer_same htarget m
    exact .inl (hsame ▸ h)

theorem of_mem_tokens {token : TokenRecord} (h : token ∈ (Memory.answer request m).2.tokens) :
    token ∈ m.tokens ∨ request = .addToken token ∨ request = .setToken token := by
  by_cases htarget : request.target? = some .tokens
  · cases request with
    | addToken added =>
      have hadded : token ∈ m.tokens ∨ token = added :=
        of_mem_written added h fun m' hadd => by rw [of_free hadd]
      exact hadded.imp_right fun htoken => .inl (by rw [htoken])
    | setToken new =>
      rcases mem_updateFirst h with h | ⟨_, _, _, rfl⟩
      · exact .inl h
      · exact .inr (.inr rfl)
    | _ => cases htarget
  · have hsame : (Memory.answer request m).2.tokens = m.tokens := Memory.answer_same htarget m
    exact .inl (hsame ▸ h)

end Store.Memory

/-! ## What a scanner can remember -/

namespace Scan.Cache

variable {cache : Cache} {request : Cache.Request}

theorem of_mem_tokens {contract : String} (h : contract ∈ (answer request cache).2.tokens) :
    contract ∈ cache.tokens ∨ request = .keepToken contract := by
  cases request with
  | keepToken kept =>
    exact (List.mem_cons.1 h).symm.imp_right fun hkept => by rw [hkept]
  | keepAsset keeper => cases keeper <;> exact .inl h
  | _ => exact .inl h

theorem of_lookup_assetsOf {owner : Refresher} {id : String} {asset : AssetRecord}
    (h : ((answer request cache).2.assetsOf owner).lookup id = some asset) :
    (cache.assetsOf owner).lookup id = some asset ∨ request = .keepAsset owner id asset := by
  cases request with
  | keepAsset keeper kept new =>
    by_cases hkeeper : keeper = owner
    · subst hkeeper
      have hput : (Store.Memory.putEntry kept new (cache.assetsOf keeper)).lookup id =
          some asset := by
        cases keeper <;> exact h
      by_cases hid : id = kept
      · subst hid
        rw [Store.Memory.lookup_putEntry_self] at hput
        cases hput
        exact .inr rfl
      · rw [Store.Memory.lookup_putEntry_of_ne _ _ hid] at hput
        exact .inl hput
    · -- each observer has a memory of its own
      cases keeper <;> cases owner <;> first | exact .inl h | exact absurd rfl hkeeper
  | _ => cases owner <;> exact .inl h

end Scan.Cache

/-! ## Where rows come from -/

/-- The owners whose balances a transfer changes are its parties, and none of them is empty. -/
theorem Transfer.of_mem_parties {transfer : Transfer} {owner : String}
    (h : owner ∈ transfer.parties) :
    (owner = transfer.sender ∨ owner = transfer.receiver) ∧ owner ≠ "" := by
  rcases List.mem_append.1 h with h | h
  · split at h
    · cases h
    · rename_i hsome
      rw [List.mem_singleton.1 h]
      exact ⟨.inl rfl, hsome⟩
  · split at h
    · cases h
    · rename_i hother
      rw [List.mem_singleton.1 h]
      exact ⟨.inr rfl, fun hnone => hother (.inl hnone)⟩

/-- A transfer that has a record has what the record takes from its operation. -/
theorem Observation.Recordable.of_record {seen : Observation} {told : Event} {transfer : Transfer}
    {record : TransferRecord} (hindex : (seen.index : Int) ≤ int32Max)
    (h : Observer.transferRecord seen told transfer seen.index = .ok record) :
    ∃ time, seen.Recordable time ∧ record = transfer.record seen told time := by
  unfold Observer.transferRecord at h
  cases htime : Timestamp.ofBlockTime seen.block.timestamp with
  | none =>
    rw [htime] at h
    cases h
  | some time =>
    rw [htime] at h
    obtain ⟨_, htime', h⟩ := Entry.of_bind h
    cases htime'
    obtain ⟨number, hnumber, h⟩ := Entry.of_bind h
    obtain ⟨rfl, -, hmax⟩ := Entry.int64_ok hnumber
    cases h
    exact ⟨time, ⟨htime, hmax, hindex⟩, rfl⟩

/-- A precision, if there is one, is a number of decimal places. -/
def TokenRecord.Scaled (token : TokenRecord) : Prop :=
  ∀ precision, token.precision = some precision → 0 ≤ precision

namespace Scan

variable {ω : Type} {env : Surroundings ω} {s : Situation ω}

/-- An operation whose code ran through reports a transfer with one of its events, in a way that can
be read. -/
structure Surroundings.Reports (env : Surroundings ω) (seen : Observation) (told : Event)
    (transfer : Transfer) : Prop where
  shown : env.Shows seen
  completed : ∃ receipt, seen.completed = some receipt ∧ told ∈ receipt.events
  name : told.name = "Transfer"
  reads : Transfer.ofArgument told.argument = .ok transfer

/-- A balance in a stored token, of an owner who took part in a transfer that the token reports. -/
structure Surroundings.TracesHolding (env : Surroundings ω) (m : Memory) (row : HoldingRecord) :
    Prop where
  token : (m.token? row.contract).isSome
  owner : row.owner ≠ ""
  party : ∃ seen told transfer, env.Reports seen told transfer ∧ told.contract = row.contract ∧
    (row.owner = transfer.sender ∨ row.owner = transfer.receiver)

/-- A transfer of a stored token, as the token reports it. -/
structure Surroundings.TracesTransfer (env : Surroundings ω) (m : Memory) (row : TransferRecord) :
    Prop where
  token : (m.token? row.contract).isSome
  report : ∃ seen told transfer time, env.Reports seen told transfer ∧ seen.Recordable time ∧
    row = transfer.record seen told time

/-- All that observers have derived can be traced, and no precision is negative. -/
structure Situation.Traced (env : Surroundings ω) (s : Situation ω) : Prop where
  holdings : ∀ row ∈ s.memory.holdings, env.TracesHolding s.memory row
  transfers : ∀ row ∈ s.memory.transfers, env.TracesTransfer s.memory row
  balances : ∀ row ∈ s.memory.balances, (s.memory.asset? row.asset).isSome
  assets : ∀ asset ∈ s.memory.assets, 0 ≤ asset.precision
  tokens : ∀ token ∈ s.memory.tokens, token.Scaled
  remembersTokens : s.RemembersStored
  remembersAssets : ∀ owner id asset, (s.cache.assetsOf owner).lookup id = some asset →
    (s.memory.asset? id).isSome ∧ 0 ≤ asset.precision

/-- Nothing has been derived yet. -/
theorem traced_empty (world : ω) :
    Situation.Traced env ⟨world, Memory.empty, Cache.empty⟩ where
  holdings _ h := by cases h
  transfers _ h := by cases h
  balances _ h := by cases h
  assets _ h := by cases h
  tokens _ h := by cases h
  remembersTokens _ h := by cases h
  remembersAssets owner _ _ h := by cases owner <;> cases h

/-- What has to be stored for the writes of a request to be traced. -/
def Situation.Warrants (env : Surroundings ω) (s : Situation ω) : Request → Prop
  | .store (.putHolding row) => env.TracesHolding s.memory row
  | .store (.addTransfer row) => env.TracesTransfer s.memory row
  | .store (.putBalance row) => (s.memory.asset? row.asset).isSome
  | .store (.addAsset asset) => 0 ≤ asset.precision
  | .store (.addToken token) | .store (.setToken token) => token.Scaled
  | .cache (.keepToken contract) => (s.memory.token? contract).isSome
  | .cache (.keepAsset _ id asset) => (s.memory.asset? id).isSome ∧ 0 ≤ asset.precision
  | _ => True

/-! ## What keeps a scanner traced -/

theorem Surroundings.TracesHolding.grow {m m' : Memory} {row : HoldingRecord}
    (h : env.TracesHolding m row) (hgrows : m.Grows m') : env.TracesHolding m' row :=
  ⟨hgrows.token _ h.token, h.owner, h.party⟩

theorem Surroundings.TracesTransfer.grow {m m' : Memory} {row : TransferRecord}
    (h : env.TracesTransfer m row) (hgrows : m.Grows m') : env.TracesTransfer m' row :=
  ⟨hgrows.token _ h.token, h.report⟩

namespace Situation.Traced

/-- What happens outside changes nothing. -/
theorem withWorld (h : s.Traced env) (world : ω) : Traced env ⟨world, s.memory, s.cache⟩ :=
  { h with }

/-- A scanner that starts remembers nothing. -/
theorem restart (h : s.Traced env) (world : ω) : Traced env ⟨world, s.memory, Cache.empty⟩ :=
  { h with
    remembersTokens := nofun
    remembersAssets := fun owner _ _ h => by cases owner <;> cases h }

/-- The store writes what is warranted. -/
theorem store (h : s.Traced env) {request : Store.Request}
    (hwarrant : s.Warrants env (.store request)) (world : ω) :
    Traced env ⟨world, (Memory.answer request s.memory).2, s.cache⟩ := by
  have hgrows := Memory.answer_grows request s.memory
  constructor
  · intro row hrow
    rcases Memory.of_mem_holdings hrow with hrow | rfl
    · exact (h.holdings row hrow).grow hgrows
    · exact Surroundings.TracesHolding.grow hwarrant hgrows
  · intro row hrow
    rcases Memory.of_mem_transfers hrow with hrow | rfl
    · exact (h.transfers row hrow).grow hgrows
    · exact Surroundings.TracesTransfer.grow hwarrant hgrows
  · intro row hrow
    rcases Memory.of_mem_balances hrow with hrow | rfl
    · exact hgrows.asset _ (h.balances row hrow)
    · exact hgrows.asset _ hwarrant
  · intro asset hasset
    rcases Memory.of_mem_assets hasset with hasset | rfl
    · exact h.assets asset hasset
    · exact hwarrant
  · intro token htoken
    rcases Memory.of_mem_tokens htoken with htoken | rfl | rfl
    · exact h.tokens token htoken
    · exact hwarrant
    · exact hwarrant
  · exact fun contract hcontract => hgrows.token _ (h.remembersTokens contract hcontract)
  · intro owner id asset hasset
    obtain ⟨hstored, hprecision⟩ := h.remembersAssets owner id asset hasset
    exact ⟨hgrows.asset _ hstored, hprecision⟩

/-- The scanner remembers what is warranted. -/
theorem remember (h : s.Traced env) {request : Cache.Request}
    (hwarrant : s.Warrants env (.cache request)) :
    Traced env ⟨s.world, s.memory, (Cache.answer request s.cache).2⟩ := by
  refine { h with remembersTokens := ?_, remembersAssets := ?_ }
  · intro contract hcontract
    rcases Cache.of_mem_tokens hcontract with hcontract | rfl
    · exact h.remembersTokens contract hcontract
    · exact hwarrant
  · intro owner id asset hasset
    rcases Cache.of_lookup_assetsOf hasset with hasset | rfl
    · exact h.remembersAssets owner id asset hasset
    · exact hwarrant

/-- A request that is warranted keeps everything traced, whatever the reply. -/
theorem answer (h : s.Traced env) {request : Request} (hwarrant : s.Warrants env request) :
    (env.answer request s).2.Traced env := by
  cases request with
  | store request =>
    obtain ⟨detail, world, hstore⟩ | ⟨world, hstore⟩ := env.answer_store_cases request s
    · rw [hstore]
      exact h.withWorld world
    · rw [hstore]
      exact h.store hwarrant world
  | node request => exact h.withWorld _
  | cache request => exact h.remember hwarrant
  | cancelled => exact h

end Situation.Traced

end Scan

end ChainIndex
