import ChainIndex.Proofs.Conduct
import ChainIndex.Proofs.Observing
import ChainIndex.Proofs.Stages

/-!
# Writes that are looked up before

The store refuses a record whose key is taken, and a row for a table or a column that it does not
have. A scanner looks before it writes, one write at a time, so that none of its requests is refused,
whatever the store holds and whoever has written it there. The one thing that it does not look up is
the columns of a table that it remembers; they are right because nobody can take a table away or
change its columns.
-/

namespace ChainIndex.Scan

open Entry (Decodes)
open Store (Memory)

/-! ## Stores that serve a scanner -/

/-- No request makes later inserts fail. -/
theorem answer_failing (request : Store.Request) (m : Memory) :
    (Memory.answer request m).2.failing = m.failing := by
  cases request with
  | addBlock | addTransaction | addOperation | addReceipt | addAccount | addToken | addTransfer =>
    apply Store.Memory.written_keeps (P := (·.failing = m.failing)) rfl
    intro m' hadd
    rw [Store.Memory.of_free hadd]
  | addRow name row =>
    apply Store.Memory.written_keeps (P := (·.failing = m.failing)) rfl
    intro m' hadd
    obtain ⟨table, -, rfl⟩ := Store.Memory.of_addRow hadd
    rfl
  | addTable name columns index => exact Store.Memory.addTable_failing m name columns index
  | addAsset =>
    simp only [Memory.answer, Memory.addAsset]
    split <;> rfl
  | hasRow =>
    simp only [Memory.answer]
    split <;> rfl
  | _ => rfl

/-- Whatever a store in memory refuses, it is the store that fails. -/
theorem isStoreFailure_of_answer {request : Store.Request} {m : Memory} {e : Error}
    (h : (Memory.answer request m).1 = .error e) : e.isStoreFailure := by
  have hwritten : ∀ r : Except Error Memory, (∀ e, r = .error e → e.isStoreFailure) →
      (m.written r).1 = .error e → e.isStoreFailure := by
    intro r hr hreply
    cases r with
    | ok m' => cases hreply
    | error e' => exact hr e (Except.error.inj hreply ▸ rfl)
  have hkey : ∀ {c : Prop} [Decidable c] {table key : String} {m' : Memory} (e : Error),
      (if c then (.error (Store.Memory.taken table key) : Except Error Memory) else .ok m') =
        .error e → e.isStoreFailure := by
    intro c _ table key m' e hadd
    split at hadd <;> cases hadd
    rfl
  cases request with
  | addBlock | addTransaction | addOperation | addReceipt | addAccount | addToken | addTransfer =>
    exact hwritten _ hkey h
  | addRow name row =>
    refine hwritten _ (fun e hadd => ?_) h
    unfold Memory.addRow at hadd
    split at hadd
    · cases hadd
      rfl
    split at hadd
    · cases hadd
      rfl
    split at hadd <;> cases hadd
    rfl
  | hasRow table =>
    simp only [Memory.answer] at h
    split at h <;> cases h
    rfl
  | _ => cases h

variable {ω : Type}

/-- A scanner can rely on its store: no inserts are made to fail, and what the scanner remembers of
a table's columns is true. -/
structure Reliable (s : Situation ω) : Prop where
  failing : s.memory.failing = []
  columns : ∀ name known, s.cache.columns.lookup name = some known →
    ∃ table, s.memory.table? name = some table ∧ table.columns = known

/-- Surroundings in which every request reaches the store, and the node does not fail like a
store. -/
structure Surroundings.Unhindered (env : Surroundings ω) : Prop where
  store : ∀ request world, (env.fault request world).1 = none
  node : ∀ request world e, (env.node request world).1 = .error e → e.isStoreFailure = false

section

variable {s : Situation ω}

/-- Whoever asks the store for whatever, scanners can go on to rely on it. -/
theorem Reliable.asked (hs : Reliable s) (request : Store.Request) (world : ω) :
    Reliable ⟨world, (Memory.answer request s.memory).2, s.cache⟩ where
  failing := (answer_failing request s.memory).trans hs.failing
  columns name known hknown := by
    obtain ⟨table, htable, hcolumns⟩ := hs.columns name known hknown
    obtain ⟨table', htable', hsame, -⟩ :=
      (Store.Memory.answer_grows request s.memory).table name table htable
    exact ⟨table', htable', hsame.trans hcolumns⟩

theorem Reliable.withWorld (hs : Reliable s) (world : ω) : Reliable { s with world } :=
  ⟨hs.failing, hs.columns⟩

/-- A scanner that has just started remembers nothing wrong. -/
theorem Reliable.restarted (hs : Reliable s) : Reliable { s with cache := Cache.empty } :=
  ⟨hs.failing, fun name known hknown => by simp [Cache.empty] at hknown⟩

theorem Reliable.keepAsset (hs : Reliable s) (owner : Refresher) (id : String)
    (asset : AssetRecord) :
    Reliable { s with cache := (Cache.answer (.keepAsset owner id asset) s.cache).2 } := by
  cases owner <;> exact ⟨hs.failing, hs.columns⟩

/-- Columns may be remembered as they are found. -/
theorem Reliable.keepColumns (hs : Reliable s) {name : String} {table : Store.Table}
    (htable : s.memory.table? name = some table) :
    Reliable { s with cache := (Cache.answer (.keepColumns name table.columns) s.cache).2 } where
  failing := hs.failing
  columns other known hknown := by
    by_cases hname : other = name
    · subst hname
      rw [Cache.answer, Store.Memory.lookup_putEntry_self] at hknown
      exact ⟨table, htable, Option.some.inj hknown⟩
    · rw [Cache.answer, Store.Memory.lookup_putEntry_of_ne _ _ hname] at hknown
      exact hs.columns other known hknown

end

/-! ## Procedures that are served -/

variable {env : Surroundings ω}

/-- From a situation, a procedure can rely on its store all along, and it does not fail like a
store. -/
def Served {α : Type} (env : Surroundings ω) (p : Procedure α) (post : α → Situation ω → Prop)
    (s : Situation ω) : Prop :=
  p.Ensures env.answer Reliable
    (fun r s' => Reliable s' ∧
      match r with
      | .ok a => post a s'
      | .error e => e.isStoreFailure = false) s

section

variable {α β : Type} {s : Situation ω} {post : α → Situation ω → Prop}

theorem served_done {a : α} (hs : Reliable s) (hpost : post a s) :
    Served env (.done a) post s :=
  ⟨hs, hpost⟩

theorem served_fail {e : Error} (hs : Reliable s) (he : e.isStoreFailure = false) :
    Served env (.fail e : Procedure α) post s :=
  ⟨hs, he⟩

theorem served_decode {x : Except Error β} {f : β → Procedure α} (hs : Reliable s)
    (hx : Decodes x) (hf : ∀ b, x = .ok b → Served env (f b) post s) :
    Served env ((Program.ofExcept x).bind f) post s := by
  cases x with
  | ok b => exact hf b rfl
  | error e => exact served_fail hs (hx e rfl)

theorem Served.bind {p : Procedure β} {f : β → Procedure α} {between : β → Situation ω → Prop}
    (hp : Served env p between s)
    (hf : ∀ b s', Program.run env.answer p s = (.ok b, s') → Reliable s' → between b s' →
      Served env (f b) post s') : Served env (p.bind f) post s := by
  obtain ⟨hmoments, hend⟩ := Program.ensures_iff.1 hp
  refine Program.ensures_bind.2 (Program.ensures_iff.2 ⟨hmoments, ?_⟩)
  cases hrun : Program.run env.answer p s with
  | mk r s' =>
    rw [hrun] at hend
    cases r with
    | error e => exact hend
    | ok b => exact hf b s' hrun hend.1 hend.2

/-- What goes on with the outcome of a procedure that is served finds no failure of the store. -/
theorem Served.attempt {p : Procedure β} {f : Except Error β → Procedure α}
    {between : β → Situation ω → Prop} (hp : Served env p between s)
    (hf : ∀ r s', Reliable s' → Decodes r → Served env (f r) post s') :
    Served env (p.attempt.bind f) post s := by
  refine Program.ensures_bind.2 (Program.ensures_attempt.2 (Program.Ensures.mono hp
    (fun _ => id) fun r s' hr => ?_))
  cases r with
  | ok b => exact hf (.ok b) s' hr.1 (Entry.decodes_ok b)
  | error e => exact hf (.error e) s' hr.1 fun e' he' => Except.error.inj he' ▸ hr.2

/-- There is nothing but failures of other kinds to pass over. -/
theorem Served.passOver {p : Procedure Unit} {between : Unit → Situation ω → Prop}
    (hp : Served env p between s) : Served env (Observer.passOver p) (fun _ _ => True) s := by
  refine Program.ensures_recover.2 (Program.Ensures.mono hp (fun _ => id) fun r s' hr => ?_)
  cases r with
  | ok _ => exact ⟨hr.1, trivial⟩
  | error e =>
    show Program.Ensures env.answer _ _ (if e.isStoreFailure then .fail e else .done ()) s'
    rw [hr.2]
    exact ⟨hr.1, trivial⟩

theorem served_cache {request : Cache.Request} {f : request.Result → Procedure α}
    (hs : Reliable { s with cache := (Cache.answer request s.cache).2 })
    (hf : Served env (f (Cache.answer request s.cache).1) post
      { s with cache := (Cache.answer request s.cache).2 }) :
    Served env ((cache request).bind f) post s :=
  ⟨hs, hf⟩

section

variable (henv : env.Unhindered)
include henv

/-- A request that the store does not refuse. -/
theorem served_store {request : Store.Request} {v : request.Result}
    {f : request.Result → Procedure α} (hs : Reliable s)
    (hanswer : (Memory.answer request s.memory).1 = .ok v)
    (hf : ∀ world, Reliable ⟨world, (Memory.answer request s.memory).2, s.cache⟩ →
      Served env (f v) post ⟨world, (Memory.answer request s.memory).2, s.cache⟩) :
    Served env ((store request).bind f) post s := by
  cases hfault : env.fault request s.world with
  | mk fault world =>
    have hnone : fault = none := by
      have hstore := henv.store request s.world
      rwa [hfault] at hstore
    subst hnone
    show Reliable (env.answer (.store request) s).2 ∧ Program.Ensures env.answer _ _
      ((Program.ofExcept (env.answer (.store request) s).1).bind f) (env.answer (.store request) s).2
    rw [env.answer_of_no_fault hfault, hanswer]
    exact ⟨hs.asked request world, hf world (hs.asked request world)⟩

/-- A write that the store does not refuse, at the end of a procedure. -/
theorem served_write {request : Store.Request} {v : request.Result} (hs : Reliable s)
    (hanswer : (Memory.answer request s.memory).1 = .ok v) :
    Served env (store request) (fun _ _ => True) s := by
  rw [← Program.bind_done (store request)]
  exact served_store henv hs hanswer fun world hs => served_done hs trivial

theorem served_node {request : Node.Request} {f : request.Result → Procedure α} (hs : Reliable s)
    (hf : ∀ v world, Reliable { s with world } → Served env (f v) post { s with world }) :
    Served env ((node request).bind f) post s := by
  have hs' := hs.withWorld (env.node request s.world).2
  refine ⟨hs', ?_⟩
  show Program.Ensures env.answer _ _
    ((Program.ofExcept (env.node request s.world).1).bind f)
    { s with world := (env.node request s.world).2 }
  cases hreply : (env.node request s.world).1 with
  | ok v => exact hf v _ hs'
  | error e => exact served_fail hs' (henv.node request s.world e hreply)

end

end

/-! ## Storing the chain -/

section

variable {s : Situation ω} (henv : env.Unhindered)
include henv

theorem recordBlock_served (hs : Reliable s) (b : Block) :
    Served env (recordBlock b) (fun _ _ => True) s := by
  unfold recordBlock
  refine served_decode hs (Entry.decodes_blockRecord b) fun record _ => ?_
  refine served_store henv hs rfl fun world hs => ?_
  simp only [Memory.answer]
  cases hfound : s.memory.block? record.number with
  | some found => exact served_done hs trivial
  | none =>
    have hadd := Store.Memory.addBlock_of_none hfound
    refine served_store henv (v := ()) hs ?_ fun _ hs => served_done hs trivial
    rw [Memory.answer, hadd]
    rfl

theorem recordPreviousId_served (hs : Reliable s) (b : Block) :
    Served env (recordPreviousId b) (fun _ _ => True) s := by
  unfold recordPreviousId
  split
  · exact served_done hs trivial
  refine served_decode hs (Entry.decodes_int64 _ _) fun number _ => ?_
  refine served_store henv hs rfl fun world hs => ?_
  cases s.memory.block? number with
  | none => exact served_done hs trivial
  | some previous =>
    show Served env (if previous.id = "" then _ else _) _ _
    split
    · exact served_write henv hs rfl
    · exact served_done hs trivial

theorem recordTransaction_served (hs : Reliable s) (tx : Transaction) :
    Served env (recordTransaction tx) (fun _ _ => True) s := by
  unfold recordTransaction
  refine served_store henv hs rfl fun world hs => ?_
  simp only [Memory.answer]
  cases hfound : s.memory.transaction? tx.id with
  | some found => exact served_done hs trivial
  | none =>
    refine served_decode hs (Entry.decodes_transactionRecord tx) fun record hrecord => ?_
    have hfree : s.memory.transaction? record.id = none := by
      rw [(Entry.transaction_record hrecord).1, hfound]
    have hadd := Store.Memory.addTransaction_of_none hfree
    refine served_store henv (v := ()) hs ?_ fun _ hs => served_done hs trivial
    rw [Memory.answer, hadd]
    rfl

/-- The columns of a type's table are those of a table that is there. -/
theorem columns_served (hs : Reliable s) (typeName : String) (sample : Payload) :
    Served env (WideTable.columns typeName sample)
      (fun known s' => ∃ table, s'.memory.table? (WideTable.name typeName) = some table ∧
        table.columns = known) s := by
  -- where the table is there, its columns are read and remembered
  have hread : ∀ s : Situation ω, Reliable s →
      (s.memory.table? (WideTable.name typeName)).isSome →
      Served env ((store (.columns (WideTable.name typeName))).bind fun found =>
          (cache (.keepColumns (WideTable.name typeName) found)).bind fun _ => .done found)
        (fun known s' => ∃ table, s'.memory.table? (WideTable.name typeName) = some table ∧
          table.columns = known) s := by
    intro s hs hfound
    obtain ⟨table, htable⟩ := Option.isSome_iff_exists.1 hfound
    refine served_store henv (v := table.columns) hs ?_ fun world hs => ?_
    · simp only [Memory.answer, htable]
      rfl
    · have hkept := hs.keepColumns htable
      exact served_cache hkept (served_done hkept ⟨table, htable, rfl⟩)
  unfold WideTable.columns
  refine served_cache hs ?_
  simp only [Cache.answer]
  cases hknown : s.cache.columns.lookup (WideTable.name typeName) with
  | some known => exact served_done hs (hs.columns _ known hknown)
  | none =>
    refine served_store henv hs rfl fun world hs => ?_
    simp only [Memory.answer]
    cases hfound : (s.memory.table? (WideTable.name typeName)).isSome with
    | true => exact hread _ hs hfound
    | false =>
      refine served_store henv hs rfl fun world hs => ?_
      exact hread _ hs (Store.Memory.table?_addTable _ _ _ _)

/-- A row of the columns of a table fits the table. -/
theorem addRow_served (hs : Reliable s) (typeName : String) (p : Payload) :
    Served env (WideTable.addRow typeName p) (fun _ _ => True) s := by
  refine (columns_served henv hs typeName p).bind fun known s' _ hs hknown => ?_
  obtain ⟨table, htable, rfl⟩ := hknown
  have hadd := Entry.addRow_row hs.failing htable p
  refine served_write henv (v := ()) hs ?_
  rw [Memory.answer, hadd]
  rfl

theorem recordOperation_served (hs : Reliable s) (op : Placed) :
    Served env (recordOperation op) (fun _ _ => True) s := by
  have hrecord : ∀ s : Situation ω, Reliable s →
      Served env ((store (.operation (placeId op.blockNumber op.transaction op.index))).bind
        fun found =>
          if found.isSome then .done ()
          else (Program.ofExcept op.record).bind fun record => store (.addOperation record))
        (fun _ _ => True) s := by
    intro s hs
    refine served_store henv hs rfl fun world hs => ?_
    simp only [Memory.answer]
    cases hfound : s.memory.operation? (placeId op.blockNumber op.transaction op.index) with
    | some found => exact served_done hs trivial
    | none =>
      refine served_decode hs (Entry.decodes_operationRecord op) fun record hrecord => ?_
      have hadd := Store.Memory.addOperation_of_none ((Entry.operation_record hrecord).id ▸ hfound)
      refine served_write henv (v := ()) hs ?_
      rw [Memory.answer, hadd]
      rfl
  have hensure : Served env (WideTable.ensure op.typeName op.payload)
      (fun _ s' => (s'.memory.table? (WideTable.name op.typeName)).isSome) s := by
    refine (columns_served henv hs op.typeName op.payload).bind fun _ _ _ hs hknown => ?_
    obtain ⟨table, htable, -⟩ := hknown
    exact served_done hs (Option.isSome_iff_exists.2 ⟨table, htable⟩)
  refine hensure.bind fun _ s₁ _ hs hfound => ?_
  obtain ⟨table, htable⟩ := Option.isSome_iff_exists.1 hfound
  have hlacks : Served env (WideTable.lacksRow op.typeName op.transaction op.index)
      (fun _ _ => True) s₁ := by
    refine served_store henv
      (v := table.rows.any (Store.Memory.isAt op.transaction (WideTable.position op.index))) hs ?_
      fun world hs => served_done hs trivial
    simp only [Memory.answer, htable]
  refine hlacks.bind fun lacksRow s₂ _ hs _ => ?_
  cases lacksRow with
  | true => exact (addRow_served henv hs op.typeName op.payload).bind fun _ s _ hs _ => hrecord s hs
  | false => exact hrecord s₂ hs

theorem recordReceipts_served (hs : Reliable s) (receipts : List Receipt) :
    Served env (recordReceipts receipts) (fun _ _ => True) s := by
  induction receipts generalizing s with
  | nil => exact served_done hs trivial
  | cons receipt rest ih =>
    unfold recordReceipts
    refine served_decode hs (Entry.decodes_receiptRecords receipt) fun (record, events) _ => ?_
    -- a receipt that is listed twice is found the second time
    refine served_store henv hs rfl fun world hs => ?_
    cases hfound : s.memory.hasReceipt record.transaction record.operation with
    | true => exact ih hs
    | false =>
      have hadd := Store.Memory.addReceipt_of_none events hfound
      refine served_store henv (v := ()) hs ?_ fun _ hs => ?_
      · simp only [Memory.answer, hadd]
        rfl
      · exact (ih hs).bind fun _ _ _ hs _ => served_done hs trivial

end

/-! ## Observers -/

/-- Questions leave the store alone. -/
theorem describeToken_memory (caller contract : String) (token : TokenRecord) (s : Situation ω) :
    (Program.run env.answer (Observer.describeToken caller contract token) s).2.memory =
      s.memory := by
  refine (describeToken_heeds caller contract token).keeps
    (M := fun s' : Situation ω => s'.memory = s.memory) (fun request s' hquestion hs' => ?_) rfl
  cases request with
  | node => exact hs'
  | store | cache | cancelled => cases hquestion

theorem applyAll_served {observers : List (Observer interface)} {seen : Observation}
    {s : Situation ω} (hs : Reliable s)
    (h : ∀ observer ∈ observers, ∀ s : Situation ω, Reliable s →
      Served env (observer.apply seen) (fun _ _ => True) s) :
    Served env (Observer.applyAll observers seen) (fun _ _ => True) s := by
  induction observers generalizing s with
  | nil => exact served_done hs trivial
  | cons observer rest ih =>
    exact (h observer (by simp) s hs).passOver.bind fun _ _ _ hs _ =>
      ih hs fun other hother => h other (by simp [hother])

section

variable {s : Situation ω} (henv : env.Unhindered)
include henv

theorem recordAccount_served (hs : Reliable s) (seen : Observation) :
    Served env (Observer.recordAccount seen) (fun _ _ => True) s := by
  unfold Observer.recordAccount
  split
  · exact served_done hs trivial
  split
  · rename_i name owner _ _
    refine served_store henv hs rfl fun world hs => ?_
    simp only [Memory.answer]
    cases hfound : s.memory.account? owner with
    | some found => exact served_done hs trivial
    | none =>
      have hadd : s.memory.addAccount ⟨owner, name⟩ = .ok _ :=
        Store.Memory.addAccount_of_none hfound
      refine served_write henv (v := ()) hs ?_
      rw [Memory.answer, hadd]
      rfl
  · exact served_done hs trivial

theorem integer_served (hs : Reliable s) (caller contract method argument : String) :
    Served env (Observer.Question.integer caller contract method argument) (fun _ _ => True) s := by
  refine served_node henv hs fun raw world hs => ?_
  cases hraw : Amount.ofResult raw with
  | ok n => exact served_done hs trivial
  | error e => exact served_fail hs (Observer.decodes_ofResult raw e hraw)

theorem description_served (hs : Reliable s) (caller contract : String) :
    Served env (Observer.Question.description caller contract) (fun _ _ => True) s := by
  have htext : ∀ (method : String) (s : Situation ω), Reliable s →
      Served env (Observer.Question.text caller contract method) (fun _ _ => True) s :=
    fun method s hs => served_node henv hs fun _ _ hs => served_done hs trivial
  refine (htext "tokenName" s hs).bind fun _ s _ hs _ => ?_
  refine (htext "tokenSymbol" s hs).bind fun _ _ _ hs _ => ?_
  refine (integer_served henv hs caller contract "precision" "").bind fun places _ _ hs _ => ?_
  exact served_decode hs (Observer.decodes_precision contract places) fun _ _ =>
    served_done hs trivial

/-- What a token says of itself does not change whose record it is. -/
theorem describeToken_served (hs : Reliable s) (caller contract : String) (token : TokenRecord) :
    Served env (Observer.describeToken caller contract token)
      (fun token' _ => token'.id = token.id) s := by
  refine (description_served henv hs caller contract).attempt fun described s hs _ => ?_
  cases described with
  | ok info | error e =>
    refine (integer_served henv hs caller contract "totalSupply" "").attempt fun supply s hs _ => ?_
    cases supply <;> exact served_done hs rfl

theorem recordToken_served (hs : Reliable s) (caller : String) (seen : Observation)
    (r : Registration) :
    Served env (Observer.recordToken caller seen r) (fun _ _ => True) s := by
  unfold Observer.recordToken
  refine served_store henv hs rfl fun world hs => ?_
  simp only [Memory.answer]
  cases hfound : s.memory.token? r.contract with
  | some found => exact served_done hs trivial
  | none =>
    refine served_decode hs ((Entry.decodes_int64 _ _).bind fun _ => Entry.decodes_ok _)
      fun token htoken => ?_
    refine (describeToken_served henv hs caller token.id token).bind fun token' s' hrun hs' hid => ?_
    -- between the look-up and the write, only the token is asked
    have hmemory : s'.memory = s.memory := by
      have hsame : (Program.run env.answer (Observer.describeToken caller token.id token)
          ⟨world, s.memory, s.cache⟩).2.memory = s'.memory := congrArg (·.2.memory) hrun
      exact hsame.symm.trans (describeToken_memory caller token.id token _)
    have hfree : s'.memory.token? token'.id = none := by
      rw [hid, Entry.newToken_id htoken, hmemory, hfound]
    have hadd := Store.Memory.addToken_of_none hfree
    refine served_write henv (v := ()) hs' ?_
    rw [Memory.answer, hadd]
    rfl

theorem recordRegistration_served (hs : Reliable s) (caller : String) (seen : Observation) :
    Served env (Observer.recordRegistration caller seen) (fun _ _ => True) s := by
  unfold Observer.recordRegistration
  split
  · refine served_decode hs (Observer.decodes_ofPayload _) fun r _ => ?_
    split
    · exact recordToken_served henv hs caller seen r
    · exact served_done hs trivial
  · exact served_done hs trivial

theorem registerAssets_served (hs : Reliable s) (owner : Refresher) (wanted : String)
    (assets : List Asset) (found : Option AssetRecord) :
    Served env (Observer.registerAssets owner wanted assets found) (fun _ _ => True) s := by
  induction assets generalizing s found with
  | nil => exact served_done hs trivial
  | cons asset rest ih =>
    unfold Observer.registerAssets
    refine served_decode hs (Observer.decodes_assetRecord asset) fun record _ => ?_
    have hkeep : ∀ s : Situation ω, Reliable s → Served env
        ((cache (.keepAsset owner record.id record)).bind fun _ =>
          Observer.registerAssets owner wanted rest
            (if record.id = wanted then some record else found)) (fun _ _ => True) s := by
      intro s hs
      have hkept := hs.keepAsset owner record.id record
      exact served_cache hkept (ih hkept _)
    refine served_store henv hs rfl fun world hs => ?_
    simp only [Memory.answer]
    cases s.memory.asset? record.id with
    | some known => exact hkeep _ hs
    | none => exact served_store henv hs rfl fun _ hs => hkeep _ hs

theorem knownAsset_served (hs : Reliable s) (owner : Refresher) (id : String) :
    Served env (Observer.knownAsset owner id) (fun _ _ => True) s := by
  unfold Observer.knownAsset
  refine served_cache hs ?_
  cases (Cache.answer (.asset owner id) s.cache).1 with
  | some asset => exact served_done hs trivial
  | none =>
    refine served_store henv hs rfl fun world hs => ?_
    simp only [Memory.answer]
    cases s.memory.asset? id with
    | some asset =>
      have hkept := hs.keepAsset owner id asset
      exact served_cache hkept (served_done hkept trivial)
    | none =>
      exact served_node henv hs fun listed _ hs => registerAssets_served henv hs owner id listed none

theorem refreshBalance_served (hs : Reliable s) (owner : Refresher) (address asset : String) :
    Served env (Observer.refreshBalance owner address asset) (fun _ _ => True) s := by
  unfold Observer.refreshBalance
  refine served_node henv hs fun balances _ hs => ?_
  refine (knownAsset_served henv hs owner asset).bind fun found _ _ hs _ => ?_
  cases found with
  | none => exact served_fail hs rfl
  | some record => exact served_write henv hs rfl

theorem refreshTransfer_served (hs : Reliable s) (seen : Observation) :
    Served env (Observer.refreshTransfer seen) (fun _ _ => True) s := by
  unfold Observer.refreshTransfer
  split
  · exact served_done hs trivial
  refine served_decode hs (Observer.decodes_transferPart _ _) fun sender _ => ?_
  refine served_decode hs (Observer.decodes_transferPart _ _) fun receiver _ => ?_
  refine served_decode hs (Observer.decodes_transferPart _ _) fun asset _ => ?_
  refine (refreshBalance_served henv hs .transfers sender asset).bind fun _ _ _ hs _ => ?_
  split
  · exact served_done hs trivial
  · exact refreshBalance_served henv hs .transfers receiver asset

theorem refreshNamed_served (hs : Reliable s) (seen : Observation) :
    Served env (Observer.refreshNamed seen) (fun _ _ => True) s := by
  unfold Observer.refreshNamed
  split
  · exact refreshBalance_served henv hs .amounts _ _
  · exact served_done hs trivial

/-! ## Events of tokens -/

theorem isKnown_served (hs : Reliable s) (contract : String) :
    Served env (Observer.isKnown contract) (fun _ _ => True) s := by
  unfold Observer.isKnown
  refine served_cache hs ?_
  cases (Cache.answer (.token contract) s.cache).1 with
  | true => exact served_done hs trivial
  | false =>
    refine served_store henv hs rfl fun world hs => ?_
    simp only [Memory.answer]
    cases s.memory.token? contract with
    | none => exact served_done hs trivial
    | some token =>
      have hkept : Reliable { (⟨world, s.memory, s.cache⟩ : Situation ω) with
          cache := (Cache.answer (.keepToken contract) s.cache).2 } := ⟨hs.failing, hs.columns⟩
      exact served_cache hkept (served_done hkept trivial)

theorem followSetUp_served (hs : Reliable s) (caller contract : String) :
    Served env (Observer.followSetUp caller contract) (fun _ _ => True) s := by
  unfold Observer.followSetUp
  refine served_store henv hs rfl fun world hs => ?_
  simp only [Memory.answer]
  cases s.memory.token? contract with
  | none => exact served_done hs trivial
  | some token =>
    exact (describeToken_served henv hs caller contract _).bind fun _ _ _ hs _ =>
      served_write henv hs rfl

theorem refreshHolding_served (hs : Reliable s) (caller contract owner : String)
    (precision : Option Nat) :
    Served env (Observer.refreshHolding caller contract owner precision) (fun _ _ => True) s :=
  (integer_served henv hs caller contract "balanceOf" owner).bind fun _ _ _ hs _ =>
    served_write henv hs rfl

theorem refreshSupply_served (hs : Reliable s) (caller contract : String) :
    Served env (Observer.refreshSupply caller contract) (fun _ _ => True) s := by
  refine (integer_served henv hs caller contract "totalSupply" "").bind fun supply s _ hs _ => ?_
  refine served_store henv hs rfl fun world hs => ?_
  simp only [Memory.answer]
  cases s.memory.token? contract with
  | none => exact served_done hs trivial
  | some token => exact served_write henv hs rfl

theorem refreshOwners_served (hs : Reliable s) (caller contract : String) (precision : Option Nat)
    (owners : List String) :
    Served env (Observer.refreshOwners caller contract precision owners) (fun _ _ => True) s := by
  induction owners generalizing s with
  | nil => exact served_done hs trivial
  | cons owner rest ih =>
    exact (refreshHolding_served henv hs caller contract owner precision).passOver.bind
      fun _ _ _ hs _ => ih hs

theorem refreshParties_served (hs : Reliable s) (caller contract : String) (transfer : Transfer) :
    Served env (refreshParties caller contract transfer) (fun _ _ => True) s := by
  refine served_store henv hs rfl fun world hs => ?_
  refine (refreshOwners_served henv hs caller contract _ transfer.parties).bind
    fun _ _ _ hs _ => ?_
  split
  · exact (refreshSupply_served henv hs caller contract).passOver
  · exact served_done hs trivial

theorem followTransfer_served (hs : Reliable s) (caller : String) (seen : Observation)
    (told : Event) :
    Served env (Observer.followTransfer caller seen told) (fun _ _ => True) s := by
  unfold Observer.followTransfer
  refine served_decode hs (Observer.decodes_ofArgument _) fun transfer _ => ?_
  refine served_decode hs (Entry.decodes_int32 _ _) fun operation _ => ?_
  refine served_store henv hs rfl fun world hs => ?_
  simp only [Memory.answer]
  cases hfound : s.memory.transfer? seen.transaction operation with
  | some found => exact refreshParties_served henv hs caller told.contract transfer
  | none =>
    refine served_decode hs (Observer.decodes_transferRecord _ _ _ _) fun record hrecord => ?_
    obtain ⟨htransaction, hplace⟩ := Entry.transferRecord_place hrecord
    have hfree : s.memory.transfer? record.transaction record.operation = none := by
      rw [htransaction, hplace, hfound]
    have hadd := Store.Memory.addTransfer_of_none hfree
    refine served_store henv (v := ()) hs ?_ fun _ hs =>
      refreshParties_served henv hs caller told.contract transfer
    rw [Memory.answer, hadd]
    rfl

theorem followEvent_served (hs : Reliable s) (caller : String) (seen : Observation)
    (told : Event) : Served env (Observer.followEvent caller seen told) (fun _ _ => True) s := by
  unfold Observer.followEvent
  split
  · exact followSetUp_served henv hs caller told.contract
  split
  · exact followTransfer_served henv hs caller seen told
  · exact served_done hs trivial

theorem followEvents_served (hs : Reliable s) (caller : String) (seen : Observation)
    (events : List Event) :
    Served env (Observer.followEvents caller seen events) (fun _ _ => True) s := by
  induction events generalizing s with
  | nil => exact served_done hs trivial
  | cons told rest ih =>
    refine (isKnown_served henv hs told.contract).bind fun known _ _ hs _ => ?_
    cases known with
    | true =>
      exact (followEvent_served henv hs caller seen told).passOver.bind fun _ _ _ hs _ => ih hs
    | false => exact ih hs

theorem refreshDeposits_served (hs : Reliable s) (holdings : List (String × String)) :
    Served env (Observer.refreshDeposits holdings) (fun _ _ => True) s := by
  induction holdings generalizing s with
  | nil => exact served_done hs trivial
  | cons holding rest ih =>
    exact (refreshBalance_served henv hs .deposits holding.1 holding.2).passOver.bind
      fun _ _ _ hs _ => ih hs

theorem followReceipt_served (hs : Reliable s) (caller : String) (seen : Observation) :
    Served env (Observer.followReceipt caller seen) (fun _ _ => True) s := by
  unfold Observer.followReceipt
  split
  · exact served_done hs trivial
  · exact (followEvents_served henv hs caller seen _).bind fun _ _ _ hs _ =>
      refreshDeposits_served henv hs _

/-- The standard observers are served. -/
theorem standard_served (hs : Reliable s) (caller : String) (seen : Observation) :
    Served env (Observer.applyAll (Observer.standard caller) seen) (fun _ _ => True) s := by
  refine applyAll_served hs ?_
  unfold Observer.standard
  simp only [List.forall_mem_cons]
  exact ⟨fun _ hs => recordAccount_served henv hs seen,
    fun _ hs => recordRegistration_served henv hs caller seen,
    fun _ hs => refreshTransfer_served henv hs seen, fun _ hs => refreshNamed_served henv hs seen,
    fun _ hs => followReceipt_served henv hs caller seen, nofun⟩

end

end ChainIndex.Scan
