import ChainIndex.Proofs.Conduct

/-!
# Observers, as entries

What an observer writes is its entries and things about the present: assets, balances, holdings, and
what tokens say of themselves. The latter depend on questions to the node, and no entry depends on
them: a procedure that asks such a question makes no entry before it has ended, or passes over its
failure.
-/

namespace ChainIndex.Observer

open Entry (Decodes)
open Scan
open Store (Memory)

section

variable {ω α : Type} {env : Surroundings ω} {Γ : Frame env}
  {receipts : String → Except Error (List Receipt)} {manner : Manner} {es : List Entry}
  {s : Situation ω} {post : α → Situation ω → Prop}

/-! ## Questions -/

/-- Where no entries are made, what cannot be decoded has no consequence. -/
theorem enters_decode {β : Type} {x : Except Error β} {f : β → Procedure α} (hs : Γ.At s)
    (hx : Decodes x) (hrest : ∀ b, Enters Γ receipts .lenient [] (f b) post s) :
    Enters Γ receipts .lenient [] ((Program.ofExcept x).bind f) post s := by
  cases x with
  | ok b => exact hrest b
  | error e => exact enters_give_up hs (hx e rfl) rfl

theorem decodes_ofResult (raw : String) : Decodes (Amount.ofResult raw) := by
  intro e h
  unfold Amount.ofResult at h
  split at h <;> cases h
  rfl

theorem decodes_precision (contract : String) (n : Int) :
    Decodes (Question.precision contract n) := by
  intro e h
  unfold Question.precision at h
  split at h <;> cases h
  rfl

theorem text_enters (hs : Γ.At s) (caller contract method : String) :
    Enters Γ receipts .lenient [] (Question.text caller contract method) (fun _ _ => True) s :=
  enters_live rfl hs fun _ _ hs => enters_done hs trivial

theorem decode_enters {β : Type} {x : Except Error β} (hs : Γ.At s) (hx : Decodes x) :
    Enters Γ receipts .lenient [] (Program.ofExcept x : Procedure β) (fun _ _ => True) s := by
  cases x with
  | ok b => exact enters_done hs trivial
  | error e => exact enters_give_up hs (hx e rfl) rfl

theorem integer_enters (hs : Γ.At s) (caller contract method argument : String) :
    Enters Γ receipts .lenient [] (Question.integer caller contract method argument)
      (fun _ _ => True) s := by
  exact enters_live rfl hs fun raw _ hs => decode_enters hs (decodes_ofResult raw)

theorem description_enters (hs : Γ.At s) (caller contract : String) :
    Enters Γ receipts .lenient [] (Question.description caller contract) (fun _ _ => True) s := by
  apply (text_enters hs caller contract "tokenName").andThen
  intro name _ hs _
  apply (text_enters hs caller contract "tokenSymbol").andThen
  intro symbol _ hs _
  apply (integer_enters hs caller contract "precision" "").andThen
  intro places _ hs _
  exact enters_decode hs (decodes_precision contract places) fun _ => enters_done hs trivial

/-- What a token says of itself does not change how it was registered, and whether it says anything
does not matter. -/
theorem describeToken_enters (hs : Γ.At s) (caller contract : String) (token : TokenRecord) :
    Enters Γ receipts .firm [] (describeToken caller contract token)
      (fun token' _ => token'.registered = token.registered) s := by
  apply (description_enters hs caller contract).attempt
  intro r s' hs' _
  cases r with
  | ok info | error e =>
    apply (integer_enters hs' caller contract "totalSupply" "").attempt
    intro r s'' hs'' _
    cases r with
    | ok supply | error e => exact enters_done hs'' rfl

/-! ## Accounts and tokens -/

theorem recordAccount_enters (hs : Γ.At s) (seen : Observation) :
    Enters Γ receipts manner (Entry.ofAccountCreation seen) (recordAccount seen)
      (fun _ _ => True) s := by
  unfold recordAccount Entry.ofAccountCreation
  by_cases htype : seen.typeName ≠ "account_create_operation"
  · rw [if_pos htype, if_pos htype]
    exact enters_done hs trivial
  rw [if_neg htype, if_neg htype]
  cases hname : seen.payload.text? "name" with
  | none => exact enters_done hs trivial
  | some name =>
    cases howner : seen.payload.text? "payer" with
    | none => exact enters_done hs trivial
    | some owner =>
      refine enters_read hs trivial rfl rfl fun world hs => ?_
      cases hfound : s.memory.account? owner with
      | some found =>
        have hthere : (Entry.account ⟨owner, name⟩).enter s.memory = .ok s.memory := by
          simp [Entry.enter, hfound]
        apply enters_there hs rfl hthere
        exact enters_done hs trivial
      | none =>
        have hadd : s.memory.addAccount ⟨owner, name⟩ = .ok _ :=
          Store.Memory.addAccount_of_none hfound
        have hmade : (Entry.account ⟨owner, name⟩).enter s.memory =
            s.memory.addAccount ⟨owner, name⟩ := by
          simp [Entry.enter, hfound]
        exact enters_write hs trivial rfl (by rw [Memory.answer, hadd]; rfl)
          (enterAll_one_history hs.sound.memory rfl (hmade.trans hadd)) fun _ => trivial

theorem decodes_refused {β : Type} (field : String) (fault : RegistrationFault) :
    Decodes (Registration.refused field fault : Except Error β) := by
  intro e h
  cases h
  rfl

theorem decodes_textField (p : Payload) (field : String) :
    Decodes (Registration.textField p field) := by
  unfold Registration.textField
  split
  · exact Entry.decodes_ok _
  · exact decodes_refused _ _

theorem decodes_integerField (p : Payload) (field : String) :
    Decodes (Registration.integerField p field) := by
  unfold Registration.integerField
  split
  · exact decodes_refused _ _
  · split
    · exact Entry.decodes_ok _
    · exact decodes_refused _ _

theorem decodes_namesField (code : Json) (field : String) :
    Decodes (Registration.namesField code field) := by
  unfold Registration.namesField
  split
  · exact decodes_refused _ _
  · split
    · exact Entry.decodes_ok _
    · exact decodes_refused _ _

theorem decodes_ofPayload (p : Payload) : Decodes (Registration.ofPayload p) := by
  unfold Registration.ofPayload
  split
  · apply (Entry.decodes_ok _).bind
    intro code
    apply (decodes_namesField _ _).bind
    intro methods
    apply (decodes_namesField _ _).bind
    intro queries
    apply (decodes_textField _ _).bind
    intro ownerKey
    apply (decodes_textField _ _).bind
    intro registerTime
    apply (decodes_textField _ _).bind
    intro owner
    apply (decodes_textField _ _).bind
    intro inheritFrom
    apply (decodes_integerField _ _).bind
    intro gasPrice
    apply (decodes_integerField _ _).bind
    intro gasLimit
    exact (decodes_textField _ _).bind fun contract => Entry.decodes_ok _
  · intro e h
    cases h
    rfl

/-- A token that has just been registered says nothing of itself yet. -/
theorem newToken_ok {seen : Observation} {r : Registration} {token : TokenRecord}
    (h : newToken seen r = .ok token) : token.registered = token := by
  obtain ⟨number, -, h⟩ := Entry.of_bind h
  cases h
  rfl

/-- The record of a token is there in the history as it is in the store. -/
theorem token?_history_eq_none {m : Memory} {contract : String} :
    m.history.token? contract = none ↔ m.token? contract = none := by
  rw [Store.Memory.history_token?, Option.map_eq_none_iff]

theorem recordToken_enters (hs : Γ.At s) (caller : String) (seen : Observation)
    (r : Registration) :
    Enters Γ receipts .lenient [.token seen r] (recordToken caller seen r)
      (fun _ _ => True) s := by
  unfold recordToken
  refine enters_read hs trivial rfl rfl fun world hs => ?_
  cases hfound : s.memory.token? r.contract with
  | some found =>
    have hthere : (Entry.token seen r).enter s.memory.history = .ok s.memory.history := by
      simp [Entry.enter, hfound]
    apply (enters_skip (s := ⟨world, s.memory, s.cache⟩) hthere).2
    exact enters_done hs trivial
  | none =>
    cases htoken : newToken seen r with
    | error e =>
      have he : e.isStoreFailure = false :=
        (Entry.decodes_int64 _ _).bind (fun _ => Entry.decodes_ok _) e htoken
      refine enters_give_up hs he (Entry.enterAll_one ?_)
      simp [Entry.enter, hfound, htoken]
    | ok token =>
      refine (describeToken_enters hs caller token.id token).beforeFirm
        fun token' s' hs' hhistory hregistered => ?_
      have hid : token'.id = r.contract := by
        rw [← TokenRecord.registered_id, hregistered, newToken_ok htoken, Entry.newToken_id htoken]
      have hfree : s'.memory.token? token'.id = none := by
        rw [hid, ← token?_history_eq_none, hhistory, token?_history_eq_none]
        exact hfound
      have hadd := Store.Memory.addToken_of_none hfree
      refine enters_write hs' trivial rfl (by rw [Memory.answer, hadd]; rfl)
        (Entry.enterAll_one ?_) fun _ => trivial
      -- the history has the token as it was registered
      have hfreeHistory : s'.memory.history.token? token.id = none := by
        rw [token?_history_eq_none, ← hfree, hid, Entry.newToken_id htoken]
      have hnone : s'.memory.history.token? r.contract = none := by
        rw [← Entry.newToken_id htoken]
        exact hfreeHistory
      simp only [Entry.enter, hnone, htoken]
      rw [if_neg (by simp), Store.Memory.addToken_of_none hfreeHistory]
      simp [Store.Memory.history, Store.Memory.indexed, hregistered, newToken_ok htoken]

theorem recordRegistration_enters (hs : Γ.At s) (caller : String) (seen : Observation) :
    Enters Γ receipts .lenient (Entry.ofRegistration seen) (recordRegistration caller seen)
      (fun _ _ => True) s := by
  unfold recordRegistration Entry.ofRegistration
  split
  · cases hr : Registration.ofPayload seen.payload with
    | error e => exact enters_give_up hs (decodes_ofPayload _ e hr) rfl
    | ok r =>
      simp only [Program.ofExcept, Program.bind_eq, Program.done_bind]
      split
      · exact recordToken_enters hs caller seen r
      · exact enters_done hs trivial
  · exact enters_done hs trivial

/-! ## Balances of addresses -/

theorem sound_keepAsset (h : Sound s) (owner : Refresher) (id : String) (asset : AssetRecord) :
    Sound { s with cache := (Cache.answer (.keepAsset owner id asset) s.cache).2 } := by
  cases owner <;> exact { h with }

theorem addAsset_history (m : Memory) (asset : AssetRecord) :
    (m.addAsset asset).history = m.history := by
  unfold Memory.addAsset
  split <;> rfl

theorem decodes_assetRecord (asset : Asset) : Decodes asset.record := by
  intro e h
  unfold Asset.record at h
  split at h <;> cases h
  rfl

theorem registerAssets_enters (hs : Γ.At s) (owner : Refresher) (wanted : String)
    (assets : List Asset) (found : Option AssetRecord) :
    Enters Γ receipts .lenient [] (registerAssets owner wanted assets found)
      (fun _ _ => True) s := by
  induction assets generalizing s found with
  | nil => exact enters_done hs trivial
  | cons asset rest ih =>
    unfold registerAssets
    apply enters_decode hs (decodes_assetRecord asset)
    intro record
    have hkeep : ∀ s', Γ.At s' → Enters Γ receipts .lenient []
        ((cache (.keepAsset owner record.id record)).bind fun _ =>
          registerAssets owner wanted rest (if record.id = wanted then some record else found))
        (fun _ _ => True) s' := by
      intro s' hs'
      exact enters_cache hs' (sound_keepAsset hs'.sound owner record.id record) fun hs => ih hs _
    refine enters_read hs trivial rfl rfl fun world hs => ?_
    cases s.memory.asset? record.id with
    | some known => exact hkeep _ hs
    | none =>
      refine enters_store [] hs trivial rfl rfl ?_ fun world hs => hkeep _ hs
      rw [addAsset_history]
      rfl

theorem knownAsset_enters (hs : Γ.At s) (owner : Refresher) (id : String) :
    Enters Γ receipts .lenient [] (knownAsset owner id) (fun _ _ => True) s := by
  unfold knownAsset
  refine enters_cache hs hs.sound fun hs => ?_
  cases (Cache.answer (.asset owner id) s.cache).1 with
  | some asset => exact enters_done hs trivial
  | none =>
    refine enters_read hs trivial rfl rfl fun world hs => ?_
    cases s.memory.asset? id with
    | some asset =>
      exact enters_cache hs (sound_keepAsset hs.sound owner id asset) fun hs =>
        enters_done hs trivial
    | none =>
      exact enters_live rfl hs fun listed _ hs => registerAssets_enters hs owner id listed none

theorem refreshBalance_enters (hs : Γ.At s) (owner : Refresher) (address asset : String) :
    Enters Γ receipts .lenient [] (refreshBalance owner address asset) (fun _ _ => True) s := by
  unfold refreshBalance
  apply enters_live rfl hs
  intro balances _ hs
  apply (knownAsset_enters hs owner asset).andThen
  intro found _ hs _
  cases found with
  | none => exact enters_give_up hs rfl rfl
  | some record => exact enters_write hs trivial rfl rfl rfl fun _ => trivial

theorem decodes_transferPart (part : TransferPart) (found : Option String) :
    Decodes (transferPart part found) := by
  intro e h
  cases found <;> cases h
  rfl

theorem refreshTransfer_enters (hs : Γ.At s) (seen : Observation) :
    Enters Γ receipts .lenient [] (refreshTransfer seen) (fun _ _ => True) s := by
  unfold refreshTransfer
  split
  · exact enters_done hs trivial
  · apply enters_decode hs (decodes_transferPart _ _)
    intro sender
    apply enters_decode hs (decodes_transferPart _ _)
    intro receiver
    apply enters_decode hs (decodes_transferPart _ _)
    intro asset
    apply (refreshBalance_enters hs .transfers sender asset).andThen
    intro _ _ hs _
    split
    · exact enters_done hs trivial
    · exact refreshBalance_enters hs .transfers receiver asset

theorem refreshNamed_enters (hs : Γ.At s) (seen : Observation) :
    Enters Γ receipts .lenient [] (refreshNamed seen) (fun _ _ => True) s := by
  unfold refreshNamed
  split
  · exact refreshBalance_enters hs .amounts _ _
  · exact enters_done hs trivial

/-! ## Events of tokens -/

/-- Whether a contract is known as a token is whether it has a record. -/
theorem isKnown_enters (hs : Γ.At s) (contract : String) :
    Enters Γ receipts .firm [] (isKnown contract)
      (fun known s' => known = (s'.memory.token? contract).isSome) s := by
  unfold isKnown
  refine enters_cache hs hs.sound fun hs => ?_
  by_cases hcached : (Cache.answer (.token contract) s.cache).1 = true
  · have hfound := hs.sound.tokens contract (List.contains_iff_mem.1 hcached)
    rw [if_pos hcached]
    exact enters_done hs hfound.symm
  · rw [if_neg hcached]
    refine enters_read hs trivial rfl rfl fun world hs => ?_
    cases hfound : s.memory.token? contract with
    | none =>
      apply enters_done hs
      rw [hfound]
      rfl
    | some token =>
      refine enters_cache hs ?_ fun hs => enters_done hs ?_
      · refine { hs.sound with tokens := fun other hother => ?_ }
        rcases List.mem_cons.1 hother with rfl | hother
        · exact Option.isSome_iff_exists.2 ⟨token, hfound⟩
        · exact hs.sound.tokens other hother
      · rw [hfound]
        rfl

theorem token?_id {m : Memory} {contract : String} {token : TokenRecord}
    (h : m.token? contract = some token) : token.id = contract := by
  simpa using List.find?_some h

theorem followSetUp_enters (hs : Γ.At s) (caller : String) (seen : Observation) {told : Event}
    (hname : told.name = "Inited") (hknown : (s.memory.token? told.contract).isSome) :
    Enters Γ receipts .lenient [.event seen told] (followSetUp caller told.contract)
      (fun _ _ => True) s := by
  obtain ⟨token, htoken⟩ := Option.isSome_iff_exists.1 hknown
  unfold followSetUp
  refine enters_read hs trivial rfl rfl fun world hs => ?_
  rw [htoken]
  refine (describeToken_enters hs caller told.contract _).beforeFirm
    fun token' s' hs' hhistory hregistered => ?_
  refine enters_write hs' trivial rfl rfl (Entry.enterAll_one ?_) fun _ => trivial
  have hfound : s'.memory.history.token? told.contract = some token.registered := by
    rw [hhistory, Store.Memory.history_token?, htoken]
    rfl
  simp only [Entry.enter, hfound, hname, if_true]
  rw [Store.Memory.history_setToken, hregistered]
  rfl

/-- A token that is written back with another supply leaves the history as it is. -/
theorem refreshSupply_enters (hs : Γ.At s) (caller contract : String) :
    Enters Γ receipts .lenient [] (refreshSupply caller contract) (fun _ _ => True) s := by
  unfold refreshSupply
  apply (integer_enters hs caller contract "totalSupply" "").andThen
  intro supply s' hs _
  refine enters_read hs trivial rfl rfl fun world hs => ?_
  cases htoken : s'.memory.token? contract with
  | none => exact enters_done hs trivial
  | some token =>
    refine enters_write hs trivial rfl rfl ?_ fun _ => trivial
    have hfound : s'.memory.token? token.id = some token := by
      rw [token?_id htoken, htoken]
    have hsame : (s'.memory.setToken
        { token with totalSupply := some (Amount.scale supply none) }).history =
          s'.memory.history := Store.Memory.history_setToken_of_found hfound rfl
    exact congrArg (Prod.mk _) hsame.symm

theorem refreshHolding_enters (hs : Γ.At s) (caller contract owner : String)
    (precision : Option Nat) :
    Enters Γ receipts .lenient [] (refreshHolding caller contract owner precision)
      (fun _ _ => True) s := by
  unfold refreshHolding
  apply (integer_enters hs caller contract "balanceOf" owner).andThen
  intro raw _ hs _
  exact enters_write hs trivial rfl rfl rfl fun _ => trivial

theorem refreshOwners_enters (hs : Γ.At s) (caller contract : String) (precision : Option Nat)
    (owners : List String) :
    Enters Γ receipts manner [] (refreshOwners caller contract precision owners)
      (fun _ _ => True) s := by
  apply Enters.ofFirm
  induction owners generalizing s with
  | nil => exact enters_done hs trivial
  | cons owner rest ih =>
    exact (refreshHolding_enters hs caller contract owner precision).passOver.andThen
      fun _ _ hs _ => ih hs

theorem decodes_ofArgument (arg : String) : Decodes (Transfer.ofArgument arg) := by
  intro e h
  unfold Transfer.ofArgument at h
  split at h
  · cases h
    rfl
  · split at h <;> cases h
    rfl

theorem decodes_transferRecord (seen : Observation) (told : Event) (transfer : Transfer)
    (position : Int) : Decodes (transferRecord seen told transfer position) := by
  unfold transferRecord
  split
  · apply (Entry.decodes_ok _).bind
    intro _
    exact (Entry.decodes_int64 _ _).bind fun _ => Entry.decodes_ok _
  · intro e h
    cases h
    rfl

theorem refreshParties_enters (hs : Γ.At s) (caller contract : String) (transfer : Transfer) :
    Enters Γ receipts .lenient [] (refreshParties caller contract transfer) (fun _ _ => True) s := by
  refine enters_read hs trivial rfl rfl fun world hs => ?_
  refine (refreshOwners_enters hs caller contract _ transfer.parties).andThen fun _ _ hs _ => ?_
  split
  · exact (refreshSupply_enters hs caller contract).passOver
  · exact enters_done hs trivial

theorem followTransfer_enters (hs : Γ.At s) (caller : String) (seen : Observation) {told : Event}
    (hname : told.name = "Transfer") (hknown : (s.memory.token? told.contract).isSome) :
    Enters Γ receipts .lenient [.event seen told] (followTransfer caller seen told)
      (fun _ _ => True) s := by
  -- for a token that is known, the entry is that of its transfer
  have hentry : ∀ m : Memory, m.token? told.contract = s.memory.token? told.contract →
      (Entry.event seen told).enter m.history = Entry.enterTransfer seen told m.history := by
    intro m hm
    obtain ⟨token, htoken⟩ := Option.isSome_iff_exists.1 hknown
    simp [Entry.enter, hm, htoken, hname]
  unfold followTransfer
  cases htransfer : Transfer.ofArgument told.argument with
  | error e =>
    refine enters_give_up hs (decodes_ofArgument _ e htransfer) (Entry.enterAll_one ?_)
    simp [hentry, Entry.enterTransfer, Entry.transfer?, htransfer]
  | ok transfer =>
    cases hposition : Quantity.operationIndex.int32 seen.index with
    | error e =>
      refine enters_give_up hs (Entry.decodes_int32 _ _ e hposition) (Entry.enterAll_one ?_)
      simp [hentry, Entry.enterTransfer, Entry.transfer?, htransfer, hposition]
    | ok position =>
      refine enters_read hs trivial rfl rfl fun world hs => ?_
      cases hfound : s.memory.transfer? seen.transaction position with
      | some found =>
        have hthere : (Entry.event seen told).enter s.memory.history = .ok s.memory.history := by
          simp [hentry, Entry.enterTransfer, Entry.transfer?, htransfer, hposition, hfound]
        apply (enters_skip (s := ⟨world, s.memory, s.cache⟩) hthere).2
        exact refreshParties_enters hs caller told.contract transfer
      | none =>
        cases hrecord : transferRecord seen told transfer position with
        | error e =>
          refine enters_give_up hs (decodes_transferRecord _ _ _ _ e hrecord)
            (Entry.enterAll_one ?_)
          simp [hentry, Entry.enterTransfer, Entry.transfer?, htransfer, hposition, hfound, hrecord]
        | ok record =>
          obtain ⟨htransaction, hplace⟩ := Entry.transferRecord_place hrecord
          have hfree : s.memory.transfer? record.transaction record.operation = none := by
            rw [htransaction, hplace, hfound]
          have hadd := Store.Memory.addTransfer_of_none hfree
          have hmade : (Entry.event seen told).enter s.memory.history =
              .ok { s.memory with transfers := s.memory.transfers ++ [record] }.history := by
            have haddHistory : s.memory.history.addTransfer record = .ok
                { s.memory with transfers := s.memory.transfers ++ [record] }.history :=
              Store.Memory.addTransfer_of_none (m := s.memory.history) hfree
            simp [hentry, Entry.enterTransfer, Entry.transfer?, htransfer, hposition, hfound,
              hrecord, haddHistory]
          exact enters_store [.event seen told] hs trivial rfl
            (by rw [Memory.answer, hadd]; rfl) (Entry.enterAll_one hmade)
            fun world hs => refreshParties_enters hs caller told.contract transfer

theorem followEvent_enters (hs : Γ.At s) (caller : String) (seen : Observation) {told : Event}
    (hknown : (s.memory.token? told.contract).isSome) :
    Enters Γ receipts .lenient [.event seen told] (followEvent caller seen told)
      (fun _ _ => True) s := by
  unfold followEvent
  by_cases hinited : told.name = "Inited"
  · rw [if_pos hinited]
    exact followSetUp_enters hs caller seen hinited hknown
  by_cases htransfer : told.name = "Transfer"
  · rw [if_neg hinited, if_pos htransfer]
    exact followTransfer_enters hs caller seen htransfer hknown
  · rw [if_neg hinited, if_neg htransfer]
    have hthere : (Entry.event seen told).enter s.memory.history = .ok s.memory.history := by
      obtain ⟨token, htoken⟩ := Option.isSome_iff_exists.1 hknown
      simp [Entry.enter, htoken, hinited, htransfer]
    exact (enters_skip hthere).2 (enters_done hs trivial)

theorem followEvents_enters (hs : Γ.At s) (caller : String) (seen : Observation)
    (events : List Event) :
    Enters Γ receipts .firm (events.map (.event seen)) (followEvents caller seen events)
      (fun _ _ => True) s := by
  induction events generalizing s with
  | nil => exact enters_done hs trivial
  | cons told rest ih =>
    unfold followEvents
    apply (isKnown_enters hs told.contract).beforeFirm
    intro known s' hs' _ hknown
    cases known with
    | true =>
      exact (followEvent_enters hs' caller seen hknown.symm).passOver.bind nofun
        fun _ _ hs _ _ => ih hs
    | false =>
      have hnone : s'.memory.token? told.contract = none :=
        Option.not_isSome_iff_eq_none.1 (by simp [← hknown])
      have hthere : (Entry.event seen told).enter s'.memory.history = .ok s'.memory.history := by
        simp [Entry.enter, hnone]
      exact (enters_skip hthere).2 (ih hs')

theorem refreshDeposits_enters (hs : Γ.At s) (holdings : List (String × String)) :
    Enters Γ receipts .firm [] (refreshDeposits holdings) (fun _ _ => True) s := by
  induction holdings generalizing s with
  | nil => exact enters_done hs trivial
  | cons holding rest ih =>
    obtain ⟨address, asset⟩ := holding
    exact (refreshBalance_enters hs .deposits address asset).passOver.andThen fun _ _ hs _ => ih hs

theorem followReceipt_enters (hs : Γ.At s) (caller : String) (seen : Observation) :
    Enters Γ receipts .firm (Entry.ofEvents seen) (followReceipt caller seen)
      (fun _ _ => True) s := by
  unfold followReceipt Entry.ofEvents
  cases seen.completed with
  | none => exact enters_done hs trivial
  | some outcome =>
    exact (followEvents_enters hs caller seen outcome.events).andThen fun _ _ hs _ =>
      refreshDeposits_enters hs _

/-! ## All observers -/

/-- The observers of a scanner make the entries that belong to what they are shown. -/
theorem applyAll_enters (hs : Γ.At s) (caller : String) (seen : Observation) :
    Enters Γ receipts .strict (Entry.ofObservation seen) (applyAll (standard caller) seen)
      (fun _ _ => True) s := by
  refine (recordAccount_enters hs seen).passOver.bind nofun fun _ _ hs _ _ => ?_
  refine (recordRegistration_enters hs caller seen).passOver.bind nofun fun _ _ hs _ _ => ?_
  apply (refreshTransfer_enters hs seen).passOver.before
  intro _ _ hs _ _
  apply (refreshNamed_enters hs seen).passOver.before
  intro _ _ hs _ _
  exact (followReceipt_enters hs caller seen).ofFirm.passOver.andThen fun _ _ hs _ =>
    enters_done hs trivial

end

end ChainIndex.Observer
