import ChainIndex.Proofs.HoldingUnits
import ChainIndex.Proofs.TracedRows

/-!
# Derived rows refer to what is known

Each observer makes only writes that are warranted where it makes them: a balance in a token is set
after the token was found to be known and an event was found to report a transfer of it, a transfer
is recorded there as well, the balance of an address is set after its asset was stored. So a scanner
stays traced through every run, whatever the node answers and wherever runs break off.
-/

namespace ChainIndex.Scan

open Observer (describeToken recordAccount recordToken recordRegistration registerAssets knownAsset
  refreshBalance refreshTransfer refreshNamed refreshDeposits isKnown followSetUp refreshHolding
  refreshSupply refreshOwners followTransfer followEvent followEvents followReceipt)
open Store (Memory)

variable {ω : Type} {env : Surroundings ω} {s : Situation ω}

/-- From a situation, a procedure leaves everything traced at each of its moments. -/
abbrev Traces {α : Type} (env : Surroundings ω) (p : Procedure α)
    (Q : Except Error α → Situation ω → Prop) (s : Situation ω) : Prop :=
  p.Along env.answer (fun _ s' => s'.Traced env) Q s

/-- A request whose writes are warranted wherever it is made. -/
def Surroundings.Clears (env : Surroundings ω) (request : Request) : Prop :=
  ∀ s : Situation ω, s.Warrants env request

section

variable {α β : Type} {Q : Except Error α → Situation ω → Prop}

/-- What has been stored before a procedure is stored after it. -/
theorem Traces.growing {p : Procedure α} (h : Traces env p Q s) :
    Traces env p (fun r s' => Q r s' ∧ s.memory.Grows s'.memory) s := by
  obtain ⟨hstages, hend⟩ := Program.along_iff.1 h
  exact Program.along_iff.2 ⟨hstages, hend, run_grows p s⟩

/-- A procedure that makes no writes that would have to be warranted. -/
theorem traces_cleared {p : Procedure α} (h : Heeds env.Clears p) (hs : s.Traced env) :
    Traces env p (fun _ s' => s'.Traced env) s :=
  Program.Obeys.along_keeping h
    (fun _ s hclears hs => ⟨hs.answer (hclears s), hs.answer (hclears s)⟩) hs

theorem clears_of_isQuestion {request : Request} (h : request.isQuestion) :
    env.Clears request := by
  cases request with
  | node => exact fun _ => trivial
  | store | cache | cancelled => cases h

/-- A question and what follows its answer. -/
theorem traces_question {p : Procedure β} {f : β → Procedure α} (h : Heeds (·.isQuestion) p)
    (hs : s.Traced env) (herror : ∀ e s', s'.Traced env → Q (.error e) s')
    (hf : ∀ b s', (Program.run env.answer p s).1 = .ok b → s'.Traced env →
      s.memory.Grows s'.memory → Traces env (f b) Q s') :
    Traces env (p.bind f) Q s := by
  have hquestion : Traces env p
      (fun r s' => (r = (Program.run env.answer p s).1 ∧ s'.Traced env) ∧
        s.memory.Grows s'.memory) s := by
    obtain ⟨hstages, hend⟩ :=
      Program.along_iff.1 (traces_cleared (h.widen fun _ => clears_of_isQuestion) hs)
    exact Traces.growing (Program.along_iff.2 ⟨hstages, rfl, hend⟩)
  exact hquestion.bind (fun e s' h => herror e s' h.1.2) fun b s' ⟨⟨hrun, hs'⟩, hgrows⟩ =>
    hf b s' hrun.symm hs' hgrows

/-- A request to the store that is warranted. -/
theorem traces_store {request : Store.Request} (hs : s.Traced env)
    (hwarrant : s.Warrants env (.store request)) :
    Traces env (store request) (fun _ s' => s'.Traced env) s :=
  along_store (T := fun _ s' => s'.Traced env) (Q := fun _ s' => s'.Traced env)
    (hs.answer hwarrant) (hs.answer hwarrant)

/-- A request to the store, and what follows if it is answered. -/
theorem traces_read {request : Store.Request} {f : request.Result → Procedure α}
    (hs : s.Traced env) (hwarrant : s.Warrants env (.store request))
    (herror : ∀ e s', s'.Traced env → Q (.error e) s')
    (hf : ∀ v s', s'.Traced env → s.memory.Grows s'.memory →
      Memory.answer request s.memory = (.ok v, s'.memory) → Traces env (f v) Q s') :
    Traces env ((store request).bind f) Q s := by
  refine along_read (T := fun _ s' => s'.Traced env) (hs.answer hwarrant)
    (fun e => herror e _ (hs.answer hwarrant)) fun v hreply => ?_
  obtain ⟨hanswer, hmemory⟩ := env.answer_of_ok hreply
  exact hf v _ (hs.answer hwarrant) (env.answer_grows _ s) (Prod.ext hanswer hmemory.symm)

/-- A request to the scanner's own memory, and what follows. -/
theorem traces_cache {request : Cache.Request} {f : request.Result → Procedure α}
    (hs : s.Traced env) (hwarrant : s.Warrants env (.cache request))
    (hf : Traces env (f (Cache.answer request s.cache).1) Q
      ⟨s.world, s.memory, (Cache.answer request s.cache).2⟩) :
    Traces env ((cache request).bind f) Q s :=
  ⟨hs.answer hwarrant, hf⟩

end

/-! ## The observers of accounts and tokens -/

theorem recordAccount_traces (hs : s.Traced env) (seen : Observation) :
    Traces env (recordAccount seen) (fun _ s' => s'.Traced env) s := by
  refine traces_cleared ?_ hs
  unfold recordAccount
  split
  · exact .done ()
  split
  · refine heeds_store (fun _ => trivial) fun found => ?_
    split
    · exact .done ()
    · exact store_heeds fun _ => trivial
  · exact .done ()

/-- What a token says of itself leaves its precision one that it can have. -/
theorem describeToken_scaled (caller contract : String) {token token' : TokenRecord}
    (h : (Program.run env.answer (describeToken caller contract token) s).1 = .ok token')
    (htoken : token.Scaled) : token'.Scaled := by
  unfold describeToken at h
  simp only [Program.bind_eq, Program.pure_eq, Program.run_bind, Program.run_attempt] at h
  split at h
  · rename_i info hinfo
    have hplaces : ∀ precision, Observer.precisionColumn info.precision = some precision →
        0 ≤ precision := by
      intro precision hprecision
      unfold Observer.precisionColumn at hprecision
      split at hprecision
      · cases hprecision
        exact Int.natCast_nonneg _
      · cases hprecision
    simp only [Program.done_bind, Program.run_bind, Program.run_attempt] at h
    split at h <;> cases h <;> exact hplaces
  · simp only [Program.done_bind, Program.run_bind, Program.run_attempt] at h
    split at h <;> cases h <;> exact htoken

theorem recordToken_traces (hs : s.Traced env) (caller : String) (seen : Observation)
    (r : Registration) :
    Traces env (recordToken caller seen r) (fun _ s' => s'.Traced env) s := by
  refine traces_read hs trivial (fun _ _ hs => hs) fun found s' hs' _ _ => ?_
  cases found with
  | some found => exact hs'
  | none =>
    cases hnew : Observer.newToken seen r with
    | error e => exact hs'
    | ok token =>
      have hscaled : token.Scaled := by
        obtain ⟨number, -, hnew⟩ := Entry.of_bind hnew
        cases hnew
        exact nofun
      refine traces_question (p := describeToken caller token.id token)
        (f := fun token => store (.addToken token)) (describeToken_heeds caller token.id token) hs'
        (fun _ _ hs => hs) fun token' s' hrun hs' _ => ?_
      exact traces_store hs' (describeToken_scaled caller token.id hrun hscaled)

theorem recordRegistration_traces (hs : s.Traced env) (caller : String) (seen : Observation) :
    Traces env (recordRegistration caller seen) (fun _ s' => s'.Traced env) s := by
  unfold recordRegistration
  split
  · cases Registration.ofPayload seen.payload with
    | error e => exact hs
    | ok r =>
      show Traces env (if r.declaresToken then _ else _) _ s
      split
      · exact recordToken_traces hs caller seen r
      · exact hs
  · exact hs

/-! ## The observers of balances -/

/-- An asset that is stored under its id, with a number of decimal places. -/
def Situation.HasAsset (s : Situation ω) (id : String) (asset : AssetRecord) : Prop :=
  (s.memory.asset? id).isSome ∧ 0 ≤ asset.precision

theorem Situation.HasAsset.grow {s s' : Situation ω} {id : String} {asset : AssetRecord}
    (h : s.HasAsset id asset) (hgrows : s.memory.Grows s'.memory) : s'.HasAsset id asset :=
  ⟨hgrows.asset _ h.1, h.2⟩

/-- An asset that is added is there. -/
theorem asset?_addAsset (m : Memory) (asset : AssetRecord) :
    ((m.addAsset asset).asset? asset.id).isSome := by
  refine Store.Memory.isSome_find?_iff.2 ?_
  rw [Store.Memory.ids_addAsset]
  split
  · rename_i hthere
    obtain ⟨old, hold, hid⟩ := List.any_eq_true.1 hthere
    exact List.mem_map.2 ⟨old, hold, beq_iff_eq.1 hid⟩
  · simp

/-- The assets of a list are stored, and so is the one that is looked for if it is found. -/
theorem registerAssets_traces (hs : s.Traced env) (owner : Refresher) (wanted : String)
    (assets : List Asset) {found : Option AssetRecord}
    (hfound : ∀ asset, found = some asset → s.HasAsset wanted asset) :
    Traces env (registerAssets owner wanted assets found)
      (fun r s' => s'.Traced env ∧ ∀ asset, r = .ok (some asset) → s'.HasAsset wanted asset) s := by
  induction assets generalizing s found with
  | nil => exact ⟨hs, fun asset hasset => hfound asset (Except.ok.inj hasset)⟩
  | cons asset rest ih =>
    unfold registerAssets
    cases hrecord : asset.record with
    | error e => exact ⟨hs, fun _ h => by cases h⟩
    | ok record =>
      have hprecision : 0 ≤ record.precision := by
        unfold Asset.record at hrecord
        split at hrecord <;> cases hrecord
        exact Int.natCast_nonneg _
      -- once the asset is stored, it is remembered
      have hkeep : ∀ {s' : Situation ω}, s'.Traced env → s.memory.Grows s'.memory →
          (s'.memory.asset? record.id).isSome → Traces env
            ((cache (.keepAsset owner record.id record)).bind fun _ =>
              registerAssets owner wanted rest (if record.id = wanted then some record else found))
            (fun r s' => s'.Traced env ∧ ∀ asset, r = .ok (some asset) → s'.HasAsset wanted asset)
            s' := by
        intro s' hs' hgrows hstored
        have hwarrant : s'.Warrants env (.cache (.keepAsset owner record.id record)) :=
          ⟨hstored, hprecision⟩
        refine traces_cache hs' hwarrant (ih (hs'.answer hwarrant) fun other hother => ?_)
        split at hother
        · rename_i hid
          cases hother
          exact ⟨hid ▸ hstored, hprecision⟩
        · exact (hfound other hother).grow hgrows
      refine traces_read hs trivial (fun _ _ hs => ⟨hs, fun _ h => by cases h⟩)
        fun known s' hs' hgrows hread => ?_
      cases known with
      | some known =>
        have hknown : s.memory.asset? record.id = some known :=
          Except.ok.inj (congrArg Prod.fst hread)
        exact hkeep hs' hgrows (hgrows.asset _ (hknown ▸ rfl))
      | none =>
        refine traces_read hs' hprecision (fun _ _ hs => ⟨hs, fun _ h => by cases h⟩)
          fun _ s'' hs'' hgrows' hadd => hkeep hs'' (hgrows.trans hgrows') ?_
        have hadded : s'.memory.addAsset record = s''.memory := congrArg Prod.snd hadd
        rw [← hadded]
        exact asset?_addAsset _ record

/-- An asset that is found, wherever it is known from, is stored. -/
theorem knownAsset_traces (hs : s.Traced env) (owner : Refresher) (id : String) :
    Traces env (knownAsset owner id)
      (fun r s' => s'.Traced env ∧ ∀ asset, r = .ok (some asset) → s'.HasAsset id asset) s := by
  unfold knownAsset
  refine traces_cache hs trivial ?_
  cases hremembered : (Cache.answer (.asset owner id) s.cache).1 with
  | some asset =>
    refine ⟨hs, fun other hother => ?_⟩
    cases hother
    exact hs.remembersAssets owner id asset hremembered
  | none =>
    refine traces_read (s := ⟨s.world, s.memory, s.cache⟩) hs trivial (fun _ _ hs => ⟨hs, nofun⟩)
      fun stored s' hs' hgrows hread => ?_
    cases stored with
    | some asset =>
      have hstored : s.memory.asset? id = some asset := Except.ok.inj (congrArg Prod.fst hread)
      have hasset : s'.Warrants env (.cache (.keepAsset owner id asset)) :=
        ⟨hgrows.asset _ (hstored ▸ rfl), hs.assets asset (List.mem_of_find?_eq_some hstored)⟩
      refine traces_cache hs' hasset ⟨hs'.answer hasset, fun other hother => ?_⟩
      cases hother
      exact hasset
    | none =>
      exact traces_question (node_heeds rfl) hs' (fun _ _ hs => ⟨hs, nofun⟩)
        fun listed s' _ hs' _ => registerAssets_traces hs' owner id listed nofun

theorem refreshBalance_traces (hs : s.Traced env) (owner : Refresher) (address asset : String) :
    Traces env (refreshBalance owner address asset) (fun _ s' => s'.Traced env) s := by
  refine traces_question (node_heeds rfl) hs (fun _ _ hs => hs) fun balances s' _ hs' _ => ?_
  refine (knownAsset_traces hs' owner asset).bind (fun _ _ h => h.1)
    fun found s'' ⟨hs'', hasset⟩ => ?_
  cases found with
  | none => exact hs''
  | some record => exact traces_store hs'' (hasset record rfl).1

theorem refreshTransfer_traces (hs : s.Traced env) (seen : Observation) :
    Traces env (refreshTransfer seen) (fun _ s' => s'.Traced env) s := by
  unfold refreshTransfer
  split
  · exact hs
  cases Observer.transferPart .sender (seen.payload.text? "from_addr") with
  | error e => exact hs
  | ok sender =>
    cases Observer.transferPart .receiver (seen.payload.text? "to_addr") with
    | error e => exact hs
    | ok receiver =>
      cases Observer.transferPart .asset seen.payload.movedAsset? with
      | error e => exact hs
      | ok asset =>
        refine (refreshBalance_traces hs .transfers sender asset).bind (fun _ _ hs => hs)
          fun _ s' hs' => ?_
        split
        · exact hs'
        · exact refreshBalance_traces hs' .transfers receiver asset

theorem refreshNamed_traces (hs : s.Traced env) (seen : Observation) :
    Traces env (refreshNamed seen) (fun _ s' => s'.Traced env) s := by
  unfold refreshNamed
  split
  · exact refreshBalance_traces hs .amounts _ _
  · exact hs

theorem refreshDeposits_traces (hs : s.Traced env) (holdings : List (String × String)) :
    Traces env (refreshDeposits holdings) (fun _ s' => s'.Traced env) s := by
  induction holdings generalizing s with
  | nil => exact hs
  | cons holding rest ih =>
    exact (along_passOver (refreshBalance_traces hs .deposits holding.1 holding.2)).bind
      (fun _ _ hs => hs) fun _ _ hs => ih hs

/-! ## The observer of token events -/

/-- A contract that is known as a token is stored as one. -/
theorem isKnown_traces (hs : s.Traced env) (contract : String) :
    Traces env (isKnown contract)
      (fun r s' => s'.Traced env ∧ (r = .ok true → (s'.memory.token? contract).isSome)) s := by
  unfold isKnown
  refine traces_cache hs trivial ?_
  show Traces env (if s.cache.tokens.contains contract then _ else _) _ s
  split
  · rename_i hremembered
    exact ⟨hs, fun _ => hs.remembersTokens contract (List.contains_iff_mem.1 hremembered)⟩
  · refine traces_read hs trivial (fun _ _ hs => ⟨hs, nofun⟩) fun found s' hs' hgrows hread => ?_
    have hfound : s.memory.token? contract = found := Except.ok.inj (congrArg Prod.fst hread)
    show Traces env (if found.isSome then _ else _) _ s'
    split
    · rename_i hsome
      have hstored : s'.Warrants env (.cache (.keepToken contract)) :=
        hgrows.token _ (hfound ▸ hsome)
      exact traces_cache hs' hstored ⟨hs'.answer hstored, fun _ => hstored⟩
    · exact ⟨hs', nofun⟩

theorem followSetUp_traces (hs : s.Traced env) (caller contract : String) :
    Traces env (followSetUp caller contract) (fun _ s' => s'.Traced env) s := by
  refine traces_read hs trivial (fun _ _ hs => hs) fun found s' hs' _ hread => ?_
  cases found with
  | none => exact hs'
  | some token =>
    have htoken : s.memory.token? contract = some token := Except.ok.inj (congrArg Prod.fst hread)
    have hscaled : token.Scaled := hs.tokens token (List.mem_of_find?_eq_some htoken)
    refine traces_question
      (p := describeToken caller contract { token with state := some "common" })
      (f := fun token => store (.setToken token)) (describeToken_heeds caller contract _) hs'
      (fun _ _ hs => hs) fun token' s'' hrun hs'' _ => ?_
    exact traces_store hs'' (describeToken_scaled caller contract hrun hscaled)

theorem refreshSupply_traces (hs : s.Traced env) (caller contract : String) :
    Traces env (refreshSupply caller contract) (fun _ s' => s'.Traced env) s := by
  refine traces_question (integer_heeds caller contract "totalSupply" "") hs (fun _ _ hs => hs)
    fun supply s' _ hs' _ => ?_
  refine traces_read hs' trivial (fun _ _ hs => hs) fun found s'' hs'' _ hread => ?_
  cases found with
  | none => exact hs''
  | some token =>
    have htoken : s'.memory.token? contract = some token := Except.ok.inj (congrArg Prod.fst hread)
    have hscaled : token.Scaled := hs'.tokens token (List.mem_of_find?_eq_some htoken)
    exact traces_store hs'' hscaled

section

variable {seen : Observation} {told : Event} {transfer : Transfer}
  (hreport : env.Reports seen told transfer) (caller : String)

include hreport

/-- The balance of a party of a transfer that a stored token reports. -/
theorem refreshHolding_traces (hs : s.Traced env)
    (hknown : (s.memory.token? told.contract).isSome) {owner : String}
    (howner : owner ∈ transfer.parties) (precision : Option Nat) :
    Traces env (refreshHolding caller told.contract owner precision)
      (fun _ s' => s'.Traced env) s := by
  refine traces_question (integer_heeds caller told.contract "balanceOf" owner) hs
    (fun _ _ hs => hs) fun raw s' _ hs' hgrows => ?_
  obtain ⟨hparty, hsome⟩ := Transfer.of_mem_parties howner
  exact traces_store hs'
    ⟨hgrows.token _ hknown, hsome, seen, told, transfer, hreport, rfl, hparty⟩

theorem refreshOwners_traces (hs : s.Traced env)
    (hknown : (s.memory.token? told.contract).isSome) {owners : List String}
    (howners : owners ⊆ transfer.parties) (precision : Option Nat) :
    Traces env (refreshOwners caller told.contract precision owners)
      (fun _ s' => s'.Traced env) s := by
  induction owners generalizing s with
  | nil => exact hs
  | cons owner rest ih =>
    have hfirst := along_passOver
      (refreshHolding_traces hreport caller hs hknown (howners List.mem_cons_self) precision)
    exact (Traces.growing hfirst).bind (fun _ _ h => h.1) fun _ s' ⟨hs', hgrows⟩ =>
      ih hs' (hgrows.token _ hknown) fun _ hmem => howners (List.mem_cons_of_mem _ hmem)

theorem refreshParties_traces (hs : s.Traced env)
    (hknown : (s.memory.token? told.contract).isSome) :
    Traces env (refreshParties caller told.contract transfer) (fun _ s' => s'.Traced env) s := by
  refine traces_read hs trivial (fun _ _ hs => hs) fun token s' hs' hgrows _ => ?_
  refine (refreshOwners_traces hreport caller hs' (hgrows.token _ hknown) (List.Subset.refl _)
    _).bind (fun _ _ hs => hs) fun _ s'' hs'' => ?_
  split
  · exact along_passOver (refreshSupply_traces hs'' caller told.contract)
  · exact hs''

end

/-- An event that reports a transfer of a stored token. -/
theorem followTransfer_traces (hs : s.Traced env) (caller : String) {seen : Observation}
    {told : Event} (hknown : (s.memory.token? told.contract).isSome)
    (hreport : ∀ transfer, Transfer.ofArgument told.argument = .ok transfer →
      env.Reports seen told transfer) :
    Traces env (followTransfer caller seen told) (fun _ s' => s'.Traced env) s := by
  unfold followTransfer
  cases htransfer : Transfer.ofArgument told.argument with
  | error e => exact hs
  | ok transfer =>
    have hreport := hreport transfer htransfer
    cases hindex : Quantity.operationIndex.int32 seen.index with
    | error e => exact hs
    | ok operation =>
      obtain ⟨rfl, -, hindex⟩ := Entry.int32_ok hindex
      -- whether or not the transfer is on record, balances and supply are asked for
      refine traces_read hs trivial (fun _ _ hs => hs) fun recorded s' hs' hgrows _ => ?_
      cases recorded with
      | some recorded => exact refreshParties_traces hreport caller hs' (hgrows.token _ hknown)
      | none =>
        cases hrecord : Observer.transferRecord seen told transfer seen.index with
        | error e => exact hs'
        | ok record =>
          obtain ⟨time, htime, rfl⟩ := Observation.Recordable.of_record hindex hrecord
          refine traces_read hs'
            ⟨hgrows.token _ hknown, seen, told, transfer, time, hreport, htime, rfl⟩
            (fun _ _ hs => hs) fun _ s'' hs'' hgrows' _ => ?_
          exact refreshParties_traces hreport caller hs'' ((hgrows.trans hgrows').token _ hknown)

section

variable {seen : Observation} (hshown : env.Shows seen) {receipt : Receipt}
  (hcompleted : seen.completed = some receipt) (caller : String)

include hshown hcompleted

theorem followEvent_traces (hs : s.Traced env) {told : Event} (htold : told ∈ receipt.events)
    (hknown : (s.memory.token? told.contract).isSome) :
    Traces env (followEvent caller seen told) (fun _ s' => s'.Traced env) s := by
  unfold followEvent
  split
  · exact followSetUp_traces hs caller told.contract
  split
  · rename_i hname
    exact followTransfer_traces hs caller hknown fun transfer hreads =>
      ⟨hshown, ⟨receipt, hcompleted, htold⟩, hname, hreads⟩
  · exact hs

theorem followEvents_traces (hs : s.Traced env) {events : List Event}
    (hevents : events ⊆ receipt.events) :
    Traces env (followEvents caller seen events) (fun _ s' => s'.Traced env) s := by
  induction events generalizing s with
  | nil => exact hs
  | cons told rest ih =>
    have hrest : rest ⊆ receipt.events := fun _ hmem => hevents (List.mem_cons_of_mem _ hmem)
    refine (isKnown_traces hs told.contract).bind (fun _ _ h => h.1)
      fun known s' ⟨hs', hknown⟩ => ?_
    cases known with
    | true =>
      exact (along_passOver (followEvent_traces hshown hcompleted caller hs'
        (hevents List.mem_cons_self) (hknown rfl))).bind (fun _ _ hs => hs) fun _ _ hs =>
          ih hs hrest
    | false => exact ih hs' hrest

end

theorem followReceipt_traces (hs : s.Traced env) (caller : String) {seen : Observation}
    (hshown : env.Shows seen) :
    Traces env (followReceipt caller seen) (fun _ s' => s'.Traced env) s := by
  unfold followReceipt
  cases hcompleted : seen.completed with
  | none => exact hs
  | some receipt =>
    exact (followEvents_traces hshown hcompleted caller hs (List.Subset.refl _)).bind
      (fun _ _ hs => hs) fun _ _ hs => refreshDeposits_traces hs _

/-! ## Runs -/

/-- The observers leave everything traced when they are shown an operation that the node has told
of. -/
theorem applyAll_traces (hs : s.Traced env) (caller : String) {seen : Observation}
    (hshown : env.Shows seen) :
    Traces env (Observer.applyAll (Observer.standard caller) seen) (fun _ s' => s'.Traced env)
      s := by
  refine (along_passOver (recordAccount_traces hs seen)).bind (fun _ _ hs => hs) fun _ _ hs => ?_
  refine (along_passOver (recordRegistration_traces hs caller seen)).bind (fun _ _ hs => hs)
    fun _ _ hs => ?_
  refine (along_passOver (refreshTransfer_traces hs seen)).bind (fun _ _ hs => hs) fun _ _ hs => ?_
  refine (along_passOver (refreshNamed_traces hs seen)).bind (fun _ _ hs => hs) fun _ _ hs => ?_
  exact (along_passOver (followReceipt_traces hs caller hshown)).bind (fun _ _ hs => hs)
    fun _ _ hs => hs

theorem clears_of_isOuter {request : Request} (h : request.isOuter) : env.Clears request := by
  intro s
  cases request with
  | store request => cases request <;> trivial
  | cache => cases h
  | node | cancelled => trivial

theorem clears_of_places {table : String} {request : Request} (h : request.Places table) :
    env.Clears request := by
  intro s
  cases request with
  | store request => cases request <;> trivial
  | cache request => cases request <;> trivial
  | node | cancelled => trivial

/-- Whatever scanners can make of a store that was empty at first is traced. -/
theorem Reachable.traced {resting : ω → ω → Prop} {starts : Option Nat → Prop}
    (h : Reachable env resting starts s) : s.Traced env := by
  refine h.invariant (M := Situation.Traced env) traced_empty (fun _ world hs => hs.restart world)
    ?_ ?_ ?_
  · exact fun request s houter _ hs => hs.answer (clears_of_isOuter houter s)
  · exact fun op s _ _ hs =>
      traces_cleared ((recordOperation_heeds op).widen fun _ => clears_of_places) hs
  · exact fun caller seen s hshown _ hs => applyAll_traces hs caller hshown

theorem places_of_nonneg {precision : Int} (h : 0 ≤ precision) :
    Observer.places precision = some precision.toNat :=
  if_pos h

/-- Whatever the node answers, and wherever runs break off: a balance in a token is one in a stored
token, of an owner who is not empty and took part in a transfer that an event of that token reports,
in an operation whose code ran through; a row of the history of transfers is one of a stored token,
and says what such an event says, at the place and the time of its operation; the balance of an
address is one in a stored asset; and the precisions of assets and tokens, stored or remembered, are
numbers of decimal places that amounts are shown with. -/
theorem derived_rows_refer_to_known {resting : ω → ω → Prop} {starts : Option Nat → Prop}
    (h : Reachable env resting starts s) :
    (∀ row ∈ s.memory.holdings, env.TracesHolding s.memory row) ∧
      (∀ row ∈ s.memory.transfers, env.TracesTransfer s.memory row) ∧
      (∀ row ∈ s.memory.balances, (s.memory.asset? row.asset).isSome) ∧
      (∀ asset, (asset ∈ s.memory.assets ∨
          ∃ owner id, (s.cache.assetsOf owner).lookup id = some asset) →
        0 ≤ asset.precision ∧
          Observer.places asset.precision = some asset.precision.toNat) ∧
      ∀ token ∈ s.memory.tokens, ∀ precision, token.precision = some precision →
        0 ≤ precision ∧ token.precision.bind Observer.places = some precision.toNat := by
  have htraced := h.traced
  refine ⟨htraced.holdings, htraced.transfers, htraced.balances, fun asset hasset => ?_,
    fun token htoken precision hprecision => ?_⟩
  · have hprecision : 0 ≤ asset.precision := by
      rcases hasset with hstored | ⟨owner, id, hremembered⟩
      · exact htraced.assets asset hstored
      · exact (htraced.remembersAssets owner id asset hremembered).2
    exact ⟨hprecision, places_of_nonneg hprecision⟩
  · have hscaled := htraced.tokens token htoken precision hprecision
    rw [hprecision]
    exact ⟨hscaled, places_of_nonneg hscaled⟩

/-- A block in which a token is registered and transferred, and some of an asset moved. -/
def marketBlock : Block :=
  let moving : Json := .arr [.int 0, .obj [
    ("amount", .obj [("amount", .int 5), ("asset_id", .str "1.3.0")]),
    ("from_addr", .str "buyer"), ("to_addr", .str "owner")]]
  { number := 1, timestamp := "2019-03-04T05:06:07",
    transactions := [{ id := "sale", operations := [registering "coin", invoking, moving] }] }

/-- Surroundings in which there is this block, the token and the asset. -/
def market : Surroundings Unit := .steady fun
  | .block number => .ok (if number = 1 then some marketBlock else none)
  | .receipts transaction => .ok (tokenReceipts transaction)
  | .invoke _ _ method _ => .ok (tokenSays method)
  | .assets _ _ => .ok [⟨"1.3.0", "HX", 5⟩]
  | .balances _ => .ok [("1.3.0", 700000)]

/-- How things stand at the moments of a run there. -/
def marketMoments : List (Situation Unit) :=
  (launch ⟨1, Observer.standard "caller"⟩ none 1).moments market.answer
    ⟨(), Memory.empty, Cache.empty⟩

/-- The run has come to its end. -/
def marketStored : Situation Unit := marketMoments.getLastD ⟨(), Memory.empty, Cache.empty⟩

theorem derived_rows_refer_to_known_in_market :
    (marketStored.memory.holdings = [⟨"coin", "owner", "10.00"⟩] ∧
        market.TracesHolding marketStored.memory ⟨"coin", "owner", "10.00"⟩) ∧
      (∃ row, marketStored.memory.transfers = [row] ∧
        market.TracesTransfer marketStored.memory row) ∧
      marketStored.memory.balances =
        [⟨"buyer", "1.3.0", "7.00000"⟩, ⟨"owner", "1.3.0", "7.00000"⟩] ∧
      (marketStored.memory.asset? "1.3.0").isSome := by
  have hsome : marketMoments ≠ [] := by decide +kernel
  have hmoment : marketStored ∈ marketMoments := Program.getLastD_mem_of_ne_nil _ hsome
  have hreachable : Reachable market (fun _ _ => True) (· = none) marketStored :=
    .run 1 1 "caller" (.empty ()) trivial rfl hmoment
  obtain ⟨hholdings, htransfers, hbalances, -, -⟩ := derived_rows_refer_to_known hreachable
  have hholding : marketStored.memory.holdings = [⟨"coin", "owner", "10.00"⟩] := by decide +kernel
  have hbalance : marketStored.memory.balances =
      [⟨"buyer", "1.3.0", "7.00000"⟩, ⟨"owner", "1.3.0", "7.00000"⟩] := by
    decide +kernel
  have hone : marketStored.memory.transfers.length = 1 := by decide +kernel
  obtain ⟨row, hrow⟩ := List.length_eq_one_iff.1 hone
  exact ⟨⟨hholding, hholdings _ (by rw [hholding]; exact List.mem_singleton.2 rfl)⟩,
    ⟨row, hrow, htransfers row (by rw [hrow]; exact List.mem_singleton.2 rfl)⟩, hbalance,
    hbalances ⟨"buyer", "1.3.0", "7.00000"⟩ (by rw [hbalance]; exact List.mem_cons_self)⟩

end ChainIndex.Scan
