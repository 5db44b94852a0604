import ChainIndex.Proofs.StoreFailures
import ChainIndex.Proofs.Stages

/-!
# The history of transfers

An operation has at most one transfer on record, that of the first event of its receipt with which a
stored token reports one. The record is found again by the transaction and the position of the
operation, so that a receipt that is followed once more adds nothing, and so that a second transfer
of the same operation is not recorded.
-/

namespace ChainIndex

open Store (Memory)

/-- The record of a transfer that an event of an operation tells of. -/
def Transfer.record (transfer : Transfer) (seen : Observation) (told : Event) (time : Timestamp) :
    TransferRecord where
  operation := seen.index
  time := time
  blockNumber := seen.block.number
  contract := told.contract
  sender := transfer.sender
  receiver := transfer.receiver
  amount := Amount.scale transfer.amount none
  transaction := seen.transaction
  eventName := told.name

/-- The transfer that an event tells of: that of a stored token whose argument can be read. -/
def Event.transfer? (m : Memory) (told : Event) : Option Transfer :=
  if told.name = "Transfer" ∧ (m.token? told.contract).isSome then
    (Transfer.ofArgument told.argument).toOption
  else none

/-- The first transfer that some events of an operation tell of, unless the operation has one on
record. -/
def Observation.newTransfer (seen : Observation) (time : Timestamp) (events : List Event)
    (m : Memory) : List TransferRecord :=
  if (m.transfer? seen.transaction seen.index).isSome then []
  else
    (events.filterMap fun told =>
      (told.transfer? m).map fun transfer => transfer.record seen told time).take 1

/-- What the record of a transfer takes from its operation is there. -/
structure Observation.Recordable (seen : Observation) (time : Timestamp) : Prop where
  time : Timestamp.ofBlockTime seen.block.timestamp = some time
  number : (seen.block.number : Int) ≤ int64Max
  index : (seen.index : Int) ≤ int32Max

theorem Observation.Recordable.record {seen : Observation} {time : Timestamp}
    (h : seen.Recordable time) (told : Event) (transfer : Transfer) :
    Observer.transferRecord seen told transfer seen.index =
      .ok (transfer.record seen told time) := by
  have hnumber : int64Min ≤ (seen.block.number : Int) ∧ (seen.block.number : Int) ≤ int64Max :=
    ⟨by unfold int64Min; omega, h.number⟩
  simp only [Observer.transferRecord, h.time, Quantity.int64, if_pos hnumber]
  rfl

namespace Scan

variable {ω : Type} {env : Surroundings ω} {s s' s'' : Situation ω}

/-! ## What is put on record -/

/-- Only stored tokens are remembered as tokens. -/
def Situation.RemembersStored (s : Situation ω) : Prop :=
  ∀ contract ∈ s.cache.tokens, (s.memory.token? contract).isSome

/-- Transfers are put on record, and the same contracts are tokens as before. -/
structure Records (rows : List TransferRecord) (s s' : Situation ω) : Prop where
  transfers : s'.memory.transfers = s.memory.transfers ++ rows
  tokens : ∀ contract, (s'.memory.token? contract).isSome = (s.memory.token? contract).isSome
  remembers : s'.RemembersStored

theorem Records.refl (hs : s.RemembersStored) {world : ω} :
    Records [] s ⟨world, s.memory, s.cache⟩ :=
  ⟨(List.append_nil _).symm, fun _ => rfl, hs⟩

theorem Records.trans {rows rows' : List TransferRecord} (h : Records rows s s')
    (h' : Records rows' s' s'') : Records (rows ++ rows') s s'' :=
  ⟨by rw [h'.transfers, h.transfers, List.append_assoc],
    fun contract => (h'.tokens contract).trans (h.tokens contract), h'.remembers⟩

/-- What is put on record until a procedure ends: some first ones of a list of transfers, and all
of them unless it fails with an error that counts. -/
def Recording {α : Type} (counts : Error → Bool) (rows : List TransferRecord) (s : Situation ω)
    (r : Except Error α) (s' : Situation ω) : Prop :=
  ∃ made, made <+: rows ∧ Records made s s' ∧ (made = rows ∨ ∃ e, r = .error e ∧ counts e)

/-- From a situation, a procedure puts transfers on record. -/
abbrev Puts {α : Type} (env : Surroundings ω) (counts : Error → Bool)
    (rows : List TransferRecord) (p : Procedure α) (s : Situation ω) : Prop :=
  p.Along env.answer (fun _ _ => True) (Recording counts rows s) s

section

variable {α β : Type} {counts : Error → Bool} {rows rows' : List TransferRecord}
  {r : Except Error α}

theorem Recording.all (h : Records rows s s') : Recording counts rows s r s' :=
  ⟨rows, List.prefix_rfl, h, .inl rfl⟩

theorem Recording.of_ok {a : α} (h : Recording counts rows s (.ok a) s') : Records rows s s' := by
  obtain ⟨made, -, hrecords, rfl | ⟨e, he, -⟩⟩ := h
  · exact hrecords
  · cases he

/-- A failure that does not count finds everything recorded. -/
theorem Recording.of_error {e : Error} (h : Recording counts rows s (.error e : Except Error α) s')
    (he : counts e = false) : Records rows s s' := by
  obtain ⟨made, -, hrecords, rfl | ⟨e', he', hcounts⟩⟩ := h
  · exact hrecords
  · cases he'
    rw [he] at hcounts
    cases hcounts

/-- What is recorded before something is the beginning of what is recorded in all. -/
theorem Recording.extend {e : Error} (h : Recording counts rows s (.error e : Except Error α) s')
    (rows' : List TransferRecord) :
    Recording (fun _ => true) (rows ++ rows') s (.error e : Except Error β) s' := by
  obtain ⟨made, hbegins, hrecords, -⟩ := h
  exact ⟨made, hbegins.trans (List.prefix_append rows rows'), hrecords, .inr ⟨e, rfl, rfl⟩⟩

theorem Recording.after (h : Records rows s s') (h' : Recording counts rows' s' r s'') :
    Recording counts (rows ++ rows') s r s'' := by
  obtain ⟨made, hbegins, hrecords, hall⟩ := h'
  exact ⟨rows ++ made, (List.prefix_append_right_inj rows).2 hbegins, h.trans hrecords,
    hall.imp_left fun hmade => by rw [hmade]⟩

/-- A sequence records what its parts record. -/
theorem Puts.bind {p : Procedure α} {f : α → Procedure β} (hp : Puts env counts rows p s)
    (hf : ∀ a s', Records rows s s' → Puts env (fun _ => true) rows' (f a) s') :
    Puts env (fun _ => true) (rows ++ rows') (p.bind f) s :=
  Program.Along.bind hp (fun _ _ h => h.extend rows') fun a s' h =>
    (hf a s' h.of_ok).mono fun _ _ h' => h'.after h.of_ok

/-- What is followed by something that records nothing records all there is. -/
theorem Puts.andThen {p : Procedure α} {f : α → Procedure β} (hp : Puts env counts rows p s)
    (hf : ∀ a s', Records rows s s' → Puts env counts [] (f a) s') :
    Puts env counts rows (p.bind f) s := by
  refine Program.Along.bind hp (fun e s' h => ?_) fun a s' h => ?_
  · obtain ⟨made, hbegins, hrecords, hall⟩ := h
    exact ⟨made, hbegins, hrecords,
      hall.imp_right fun ⟨e', he', hcounts⟩ => ⟨e, rfl, Except.error.inj he' ▸ hcounts⟩⟩
  · refine (hf a s' h.of_ok).mono fun _ _ h' => ?_
    have hafter := h'.after h.of_ok
    rwa [List.append_nil] at hafter

/-- Only the store's failures are not passed over. -/
theorem Puts.passOver {p : Procedure Unit} (h : Puts env Error.isStoreFailure rows p s) :
    Puts env Error.isStoreFailure rows (Observer.passOver p) s := by
  refine Program.along_recover.2 (Program.Along.mono h fun r s' hs' => ?_)
  cases r with
  | ok a => exact hs'
  | error e =>
    show Program.Along env.answer _ _ (if e.isStoreFailure then .fail e else .done ()) s'
    cases he : e.isStoreFailure with
    | true => exact hs'
    | false => exact Recording.all (hs'.of_error he)

end

/-! ## Observers that record nothing -/

/-- Observers that add no tokens leave the same contracts tokens. -/
theorem tokens_of_observes {kept : List Derived} (hkept : .newTokens ∉ kept) {request : Request}
    (h : request.observes kept) (s : Situation ω) (contract : String) :
    ((env.answer request s).2.memory.token? contract).isSome =
      (s.memory.token? contract).isSome := by
  by_cases htarget : request.target? = some .tokens
  · cases request with
    | store request =>
      cases request with
      | addToken => exact absurd (List.contains_iff_mem.1 h) hkept
      | setToken token =>
        obtain ⟨detail, world, hstore⟩ | ⟨world, hstore⟩ :=
          env.answer_store_cases (.setToken token) s
        · rw [hstore]
        · rw [hstore]
          exact Memory.find?_updateFirst_of_same s.memory.tokens fun a _ ha => by
            rw [beq_iff_eq.1 ha]
      | _ => cases htarget
    | node | cache | cancelled => cases htarget
  · have hsame : (env.answer request s).2.memory.tokens = s.memory.tokens :=
      env.answer_same htarget s
    simp only [Memory.token?, hsame]

/-- Observers that remember no tokens leave what is remembered of them. -/
theorem knownTokens_of_observes {kept : List Derived} (hkept : .knownTokens ∉ kept)
    {request : Request} (h : request.observes kept) (s : Situation ω) :
    (env.answer request s).2.cache.tokens = s.cache.tokens := by
  cases request with
  | store request =>
    obtain ⟨detail, world, hstore⟩ | ⟨world, hstore⟩ := env.answer_store_cases request s
    · rw [hstore]
    · rw [hstore]
  | node | cancelled => rfl
  | cache request =>
    cases request with
    | keepToken => exact absurd (List.contains_iff_mem.1 h) hkept
    | keepAsset owner => cases owner <;> rfl
    | _ => rfl

section

variable {counts : Error → Bool} {α : Type}

/-- What is kept by observers that put no transfers on record. -/
theorem puts_nothing {kept : List Derived} {p : Procedure α} (h : Heeds (·.observes kept) p)
    (hkept : kept ⊆ [.assets, .balances, .tokens, .holdings]) (hs : s.RemembersStored) :
    Puts env counts [] p s := by
  have hnone : ∀ d ∈ [Derived.newTokens, .knownTokens, .transfers], d ∉ kept := by
    intro d hd hmem
    have hother := hkept hmem
    cases d <;> simp at hd hother
  have htarget : ∀ request : Request, request.observes kept →
      request.target? ≠ some .transfers := by
    intro request hrequest hsome
    obtain ⟨d, hd, hpart⟩ := List.mem_map.1 (Request.target?_of_observes hrequest hsome)
    cases d <;> cases hpart
    exact hnone .transfers (by simp) hd
  have hkeeps : ∀ request (s₁ : Situation ω), request.observes kept → Records [] s s₁ →
      Records [] s (env.answer request s₁).2 := by
    intro request s₁ hrequest hs₁
    have htokens : ∀ contract, ((env.answer request s₁).2.memory.token? contract).isSome =
        (s₁.memory.token? contract).isSome :=
      tokens_of_observes (hnone .newTokens (by simp)) hrequest s₁
    refine hs₁.trans ⟨?_, htokens, fun contract hcontract => ?_⟩
    · rw [List.append_nil]
      exact env.answer_same (htarget request hrequest) s₁
    · rw [knownTokens_of_observes (hnone .knownTokens (by simp)) hrequest] at hcontract
      rw [htokens]
      exact hs₁.remembers contract hcontract
  exact Program.Obeys.along h (fun _ _ _ => trivial)
    (.all (Program.Obeys.keeps (M := Records [] s) h hkeeps (.refl hs)))

/-- A request to the store that it answers, unless it is at fault. -/
theorem puts_store {rows rows' : List TransferRecord} {request : Store.Request}
    {v : request.Result} {m' : Memory} {f : request.Result → Procedure α} (hs : s.RemembersStored)
    (hanswer : Memory.answer request s.memory = (.ok v, m'))
    (hrecords : ∀ world, Records rows s ⟨world, m', s.cache⟩)
    (hf : ∀ world, Puts env Error.isStoreFailure rows' (f v) ⟨world, m', s.cache⟩) :
    Puts env Error.isStoreFailure (rows ++ rows') ((store request).bind f) s := by
  refine ⟨trivial, ?_⟩
  obtain ⟨detail, world, hstore⟩ | ⟨world, hstore⟩ := env.answer_store_cases request s
  · rw [hstore]
    exact ⟨[], List.nil_prefix, .refl hs, .inr ⟨_, rfl, rfl⟩⟩
  · rw [hstore, hanswer]
    exact (hf world).mono fun _ _ h => h.after (hrecords world)

end

/-! ## Which transfer is the first -/

section

variable {seen : Observation} {time : Timestamp} {told : Event} {rest : List Event}
  {rows : List TransferRecord}

/-- What an event tells of depends on which contracts are tokens. -/
theorem Records.transfer? (h : Records rows s s') (told : Event) :
    told.transfer? s'.memory = told.transfer? s.memory := by
  simp only [Event.transfer?, h.tokens]

theorem Records.newTransfer (h : Records [] s s') (events : List Event) :
    seen.newTransfer time events s'.memory = seen.newTransfer time events s.memory := by
  have hsame : ∀ transaction operation,
      s'.memory.transfer? transaction operation = s.memory.transfer? transaction operation := by
    simp [Memory.transfer?, h.transfers]
  simp only [Observation.newTransfer, hsame, h.transfer?]

/-- The first event of a list tells of the transfer, or the others do. -/
theorem newTransfer_cons (m : Memory) :
    seen.newTransfer time (told :: rest) m =
      seen.newTransfer time [told] m ++
        if (told.transfer? m).isSome then [] else seen.newTransfer time rest m := by
  unfold Observation.newTransfer
  split
  · split <;> rfl
  · cases htold : told.transfer? m <;> simp [htold]

/-- An operation has a transfer on record once one has been told of. -/
theorem Records.on_record {events : List Event}
    (h : Records (seen.newTransfer time events s.memory) s s')
    (hnew : seen.newTransfer time events s.memory ≠ [] ∨
      (s.memory.transfer? seen.transaction seen.index).isSome) :
    (s'.memory.transfer? seen.transaction seen.index).isSome := by
  simp only [Memory.transfer?, h.transfers, List.find?_append, Option.isSome_or, Bool.or_eq_true]
  rcases hnew with hnew | hthere
  · refine .inr (List.find?_isSome.2 ?_)
    obtain ⟨row, hrow⟩ := List.exists_mem_of_ne_nil _ hnew
    refine ⟨row, hrow, ?_⟩
    -- the record has the place of the operation
    unfold Observation.newTransfer at hrow
    split at hrow
    · cases hrow
    · obtain ⟨told, -, htold⟩ := List.mem_filterMap.1 (List.mem_of_mem_take hrow)
      obtain ⟨transfer, -, rfl⟩ := Option.map_eq_some_iff.1 htold
      simp [Transfer.record]
  · exact .inl hthere

/-- The events after the first tell of a transfer if that one does not. -/
theorem newTransfer_after (h : Records (seen.newTransfer time [told] s.memory) s s') :
    seen.newTransfer time rest s'.memory =
      if (told.transfer? s.memory).isSome then [] else seen.newTransfer time rest s.memory := by
  cases htold : told.transfer? s.memory with
  | none =>
    have hnone : seen.newTransfer time [told] s.memory = [] := by
      simp [Observation.newTransfer, htold]
    rw [hnone] at h
    exact h.newTransfer rest
  | some transfer =>
    have hthere := h.on_record <| by
      simp only [Observation.newTransfer]
      split
      · exact .inr ‹_›
      · simp [htold]
    simp [Observation.newTransfer, hthere]

/-- Events that have been followed tell of nothing new. -/
theorem newTransfer_again {events : List Event}
    (h : Records (seen.newTransfer time events s.memory) s s') :
    seen.newTransfer time events s'.memory = [] := by
  by_cases hnew : seen.newTransfer time events s.memory = []
  · rw [hnew] at h
    rw [h.newTransfer, hnew]
  · simp [Observation.newTransfer, h.on_record (.inl hnew)]

end

/-! ## Receipts -/

section

variable {seen : Observation} {time : Timestamp} {told : Event}

/-- Whether a contract is known as a token is whether it is stored as one. -/
theorem isKnown_puts (hs : s.RemembersStored) (contract : String) :
    (Observer.isKnown contract).Along env.answer (fun _ _ => True)
      (fun r s' => Recording (fun _ => true) [] s r s' ∧
        ∀ known, r = .ok known → known = (s.memory.token? contract).isSome) s := by
  refine ⟨trivial, ?_⟩
  show Program.Along env.answer _ _ (if s.cache.tokens.contains contract then _ else _) s
  by_cases hcached : s.cache.tokens.contains contract
  · rw [if_pos hcached]
    refine ⟨.all (.refl hs), fun known hknown => ?_⟩
    cases hknown
    exact (hs contract (List.contains_iff_mem.1 hcached)).symm
  rw [if_neg hcached]
  refine ⟨trivial, ?_⟩
  obtain ⟨detail, world, hstore⟩ | ⟨world, hstore⟩ := env.answer_store_cases (.token contract) s
  · rw [hstore]
    exact ⟨.all (.refl hs), nofun⟩
  · rw [hstore]
    show Program.Along env.answer _ _ (if (s.memory.token? contract).isSome then _ else _)
      ⟨world, s.memory, s.cache⟩
    by_cases hstored : (s.memory.token? contract).isSome
    · rw [if_pos hstored]
      refine ⟨trivial, .all ⟨(List.append_nil _).symm, fun _ => rfl, ?_⟩, ?_⟩
      · intro other hother
        rcases List.mem_cons.1 hother with rfl | hother
        · exact hstored
        · exact hs other hother
      · intro known hknown
        cases hknown
        exact hstored.symm
    · rw [if_neg hstored]
      refine ⟨.all (.refl hs), fun known hknown => ?_⟩
      cases hknown
      simpa using hstored

variable (h : seen.Recordable time)

include h

/-- The event of a stored token that reports a transfer. -/
theorem followTransfer_puts (hs : s.RemembersStored) (caller : String)
    (hname : told.name = "Transfer") (hknown : (s.memory.token? told.contract).isSome) :
    Puts env Error.isStoreFailure (seen.newTransfer time [told] s.memory)
      (Observer.followTransfer caller seen told) s := by
  have htold : told.transfer? s.memory = (Transfer.ofArgument told.argument).toOption :=
    if_pos ⟨hname, hknown⟩
  unfold Observer.followTransfer
  cases htransfer : Transfer.ofArgument told.argument with
  | error e =>
    have hnone : seen.newTransfer time [told] s.memory = [] := by
      simp [Observation.newTransfer, htold, htransfer, Except.toOption]
    rw [hnone]
    exact .all (.refl hs)
  | ok transfer =>
    have hindex : Quantity.operationIndex.int32 seen.index = .ok (seen.index : Int) :=
      if_pos ⟨by unfold int32Min; omega, h.index⟩
    rw [hindex]
    have hparties : ∀ {s : Situation ω}, s.RemembersStored → Puts env Error.isStoreFailure [] _ s :=
      fun hs => puts_nothing (refreshParties_heeds caller told.contract transfer) (by decide) hs
    have hlookup : Memory.answer (.transfer seen.transaction seen.index) s.memory =
        (.ok (s.memory.transfer? seen.transaction seen.index), s.memory) := rfl
    cases hfound : s.memory.transfer? seen.transaction seen.index with
    | some found =>
      have hnone : seen.newTransfer time [told] s.memory = [] := by
        simp [Observation.newTransfer, hfound]
      rw [hfound] at hlookup
      rw [hnone]
      exact puts_store hs hlookup (fun _ => .refl hs) fun _ => hparties hs
    | none =>
      have hone : seen.newTransfer time [told] s.memory = [transfer.record seen told time] := by
        simp [Observation.newTransfer, hfound, htold, htransfer, Except.toOption]
      rw [hfound] at hlookup
      rw [hone]
      refine puts_store hs hlookup (fun _ => .refl hs) fun world => ?_
      show Puts env _ _ ((Program.ofExcept (Observer.transferRecord seen told transfer _)).bind _) _
      rw [h.record told transfer]
      have hadd : Memory.answer (.addTransfer (transfer.record seen told time)) s.memory =
          (.ok (), { s.memory with
            transfers := s.memory.transfers ++ [transfer.record seen told time] }) := by
        rw [Memory.answer, Memory.addTransfer_of_none hfound]
        rfl
      exact puts_store (s := ⟨world, s.memory, s.cache⟩) hs hadd
        (fun _ => ⟨rfl, fun _ => rfl, hs⟩) fun _ => hparties hs

theorem followEvent_puts (hs : s.RemembersStored) (caller : String)
    (hknown : (s.memory.token? told.contract).isSome) :
    Puts env Error.isStoreFailure (seen.newTransfer time [told] s.memory)
      (Observer.followEvent caller seen told) s := by
  unfold Observer.followEvent
  by_cases htransfer : told.name = "Transfer"
  · rw [if_neg (by rw [htransfer]; decide), if_pos htransfer]
    exact followTransfer_puts h hs caller htransfer hknown
  · -- no other event tells of a transfer
    have hnone : seen.newTransfer time [told] s.memory = [] := by
      simp [Observation.newTransfer, Event.transfer?, htransfer]
    rw [hnone]
    rw [if_neg htransfer]
    split
    · exact puts_nothing (followSetUp_heeds caller told.contract) (by decide) hs
    · exact .all (.refl hs)

theorem followEvents_puts (hs : s.RemembersStored) (caller : String) (events : List Event) :
    Puts env (fun _ => true) (seen.newTransfer time events s.memory)
      (Observer.followEvents caller seen events) s := by
  induction events generalizing s with
  | nil =>
    have hnone : seen.newTransfer time [] s.memory = [] := by simp [Observation.newTransfer]
    rw [hnone]
    exact .all (.refl hs)
  | cons told rest ih =>
    -- what the other events tell of, by what this one has told
    have hrest : ∀ {s s' : Situation ω}, Records (seen.newTransfer time [told] s.memory) s s' →
        Puts env (fun _ => true)
          (if (told.transfer? s.memory).isSome then [] else seen.newTransfer time rest s.memory)
          (Observer.followEvents caller seen rest) s' := by
      intro s s' hrecords
      rw [← newTransfer_after hrecords]
      exact ih hrecords.remembers
    refine (isKnown_puts hs told.contract).bind (fun e s' h => ?_) fun known s' ⟨hrec, hpost⟩ => ?_
    · exact h.1.extend _
    have hrecords := hrec.of_ok
    suffices hafter :
        Puts env (fun _ => true) (seen.newTransfer time (told :: rest) s'.memory) _ s' by
      rw [hrecords.newTransfer] at hafter
      exact Program.Along.mono hafter fun _ _ h' => h'.after hrecords
    rw [newTransfer_cons]
    have hknown := hpost known rfl
    rw [← hrecords.tokens] at hknown
    cases known with
    | true =>
      exact (followEvent_puts h hrecords.remembers caller hknown.symm).passOver.bind
        fun _ _ hrecords => hrest hrecords
    | false =>
      have hnone : seen.newTransfer time [told] s'.memory = [] := by
        simp [Observation.newTransfer, Event.transfer?, ← hknown]
      have hnothing : Records (seen.newTransfer time [told] s'.memory) s' s' := by
        rw [hnone]
        exact .refl hrecords.remembers
      rw [hnone]
      exact hrest hnothing

/-- A receipt puts the transfer on record that the first of its events tells of. -/
theorem followReceipt_puts {receipt : Receipt} (hcompleted : seen.completed = some receipt)
    (hs : s.RemembersStored) (caller : String) :
    Puts env (fun _ => true) (seen.newTransfer time receipt.events s.memory)
      (Observer.followReceipt caller seen) s := by
  unfold Observer.followReceipt
  rw [hcompleted]
  exact (followEvents_puts h hs caller receipt.events).andThen fun _ _ hrecords =>
    puts_nothing (refreshDeposits_heeds _) (by decide) hrecords.remembers

/-- If the observer of token events comes to the end of a receipt, it has recorded the transfer of
the first event that tells of one, unless the operation had one on record, and no other transfer.
The receipt adds nothing when it is followed again, whatever the node answers then. -/
theorem first_transfer_on_record {receipt : Receipt} (hcompleted : seen.completed = some receipt)
    (hs : s.RemembersStored) {caller : String}
    (hrun : Program.run env.answer (Observer.followReceipt caller seen) s = (.ok (), s')) :
    s'.memory.transfers = s.memory.transfers ++ seen.newTransfer time receipt.events s.memory ∧
      ∀ {ω' : Type} (env' : Surroundings ω') (again : Situation ω') (caller' : String),
        again.memory = s'.memory → again.RemembersStored →
        (Program.run env'.answer (Observer.followReceipt caller' seen) again).2.memory.transfers =
          s'.memory.transfers := by
  have hputs : Puts env (fun _ => true) (seen.newTransfer time receipt.events s.memory)
    (Observer.followReceipt caller seen) s := followReceipt_puts h hcompleted hs caller
  have hend := (Program.along_iff.1 hputs).2
  rw [hrun] at hend
  have hrecords := hend.of_ok
  refine ⟨hrecords.transfers, fun env' again caller' hmemory hagain => ?_⟩
  have hputs' : Puts env' (fun _ => true) (seen.newTransfer time receipt.events again.memory)
    (Observer.followReceipt caller' seen) again := followReceipt_puts h hcompleted hagain caller'
  have hend' := (Program.along_iff.1 hputs').2
  rw [hmemory, newTransfer_again hrecords] at hend'
  obtain ⟨made, hbegins, hmade, -⟩ := hend'
  rw [List.prefix_nil.1 hbegins] at hmade
  rw [hmade.transfers, List.append_nil, hmemory]

end

/-! ## An operation with two transfers -/

/-- The record of a token that says nothing of itself. -/
def coin : TokenRecord where
  id := "coin"
  blockNumber := 1
  blockTime := "2019-03-04T05:06:07"
  transaction := "birth"
  contractType := "common"
  ownerKey := ""
  owner := ""
  registerTime := ""
  inheritFrom := ""
  gasPrice := 0
  gasLimit := 0
  state := none
  totalSupply := none
  precision := none
  symbol := none
  name := none
  logo := none
  url := none
  description := none

/-- A store in which there is a token, and a scanner that has just started. -/
def coined : Situation Unit := ⟨(), { Memory.empty with tokens := [coin] }, Cache.empty⟩

/-- The owner of the token passes some of it on, and the buyer some of that. -/
def resold : Receipt where
  operation := 0
  succeeded := true
  events := [
    { contract := "coin", name := "Transfer",
      argument := "\x7b\"from\":\"owner\",\"to\":\"buyer\",\"amount\":5\x7d" },
    { contract := "coin", name := "Transfer",
      argument := "\x7b\"from\":\"buyer\",\"to\":\"friend\",\"amount\":3\x7d" }]

def reselling : Observation where
  block := { number := 2, timestamp := "2019-03-04T05:06:12" }
  transaction := "resale"
  index := 0
  typeCode := 78
  typeName := "contract_invoke_operation"
  payload := .empty
  receipt := some resold

def resaleTime : Timestamp := ⟨2019, 3, 4, 5, 6, 12, 0⟩

/-- Surroundings in which balances cannot be had. -/
def closed : Surroundings Unit := .steady (.lone {} (.node "closed"))

/-- The observer of token events has followed the receipt. -/
def afterResale : Except Error Unit × Situation Unit :=
  Program.run closed.answer (Observer.followReceipt "caller" reselling) coined

theorem reselling_recordable : reselling.Recordable resaleTime :=
  ⟨by decide +kernel, by decide, by decide⟩

theorem coined_remembersStored : coined.RemembersStored := nofun

theorem afterResale_ok : afterResale.1 = .ok () := Program.eq_ok_of_toBool (by decide +kernel)

/-- The second event reports a transfer of a stored token, and that does not go on record. -/
theorem second_transfer_not_on_record :
    reselling.completed = some resold ∧ reselling.Recordable resaleTime ∧
      coined.RemembersStored ∧ afterResale.1 = .ok () ∧
      ∃ told ∈ resold.events, ∃ transfer, told.transfer? coined.memory = some transfer ∧
        transfer.record reselling told resaleTime ∉ afterResale.2.memory.transfers := by
  have htold : (resold.events.getLast (by decide)).transfer? coined.memory =
      some ⟨"buyer", "friend", 3⟩ := by decide +kernel
  have hreceivers : afterResale.2.memory.transfers.map (·.receiver) = ["buyer"] := by
    decide +kernel
  refine ⟨rfl, reselling_recordable, coined_remembersStored, afterResale_ok, _,
    List.getLast_mem _, _, htold, fun hmem => ?_⟩
  have hfriend := List.mem_map_of_mem (f := (·.receiver)) hmem
  rw [hreceivers] at hfriend
  revert hfriend
  decide

theorem first_transfer_on_record_of_resale :
    afterResale.2.memory.transfers =
        coined.memory.transfers ++ reselling.newTransfer resaleTime resold.events coined.memory ∧
      (reselling.newTransfer resaleTime resold.events coined.memory).length = 1 ∧
      (Program.run closed.answer (Observer.followReceipt "caller" reselling)
        afterResale.2).2.memory.transfers = afterResale.2.memory.transfers := by
  have hrun : afterResale = (.ok (), afterResale.2) := by rw [← afterResale_ok]
  have hagain : afterResale.2.RemembersStored := by
    unfold Situation.RemembersStored
    decide +kernel
  have hlength : (reselling.newTransfer resaleTime resold.events coined.memory).length = 1 := by
    decide +kernel
  obtain ⟨hfirst, hsame⟩ :=
    first_transfer_on_record reselling_recordable rfl coined_remembersStored hrun
  exact ⟨hfirst, hlength, hsame closed afterResale.2 "caller" rfl hagain⟩

end Scan

end ChainIndex
