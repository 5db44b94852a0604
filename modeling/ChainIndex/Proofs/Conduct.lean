import ChainIndex.Observer.Standard
import ChainIndex.Proofs.Calls
import ChainIndex.Proofs.Entering
import ChainIndex.Scan.Loop

/-!
# The conduct of a scanner

What the procedures of a scanner ask, and that each of them gives up when the store fails, however
much it puts up with otherwise. The procedures that store and observe operations ask neither for the
checkpoint nor for blocks or receipts. Between two blocks only the checkpoint is written, and only
as the number of a block.
-/

namespace ChainIndex.Scan

open Program (Obeys)

/-! ## Rules for scanners -/

/-- Whether a request comes up while operations are stored and observed. -/
def Request.isIndexing : Request → Bool
  | .store (.config _) | .store (.putConfig _ _) => false
  | .store _ => true
  | .node request => request.isLive
  | .cache _ => true
  | .cancelled => false

/-- Whether a request comes up while blocks, transactions and receipts are stored. -/
def Request.isFiling : Request → Bool
  | .store (.block _) | .store (.addBlock _) | .store (.setBlockId _ _) => true
  | .store (.transaction _) | .store (.addTransaction _) => true
  | .store (.hasReceipt _ _) | .store (.addReceipt _ _) => true
  | _ => false

/-- What is filed beside operations. -/
inductive Filed where
  | blocks
  | transactions
  | receipts
deriving DecidableEq

/-- Whether a request comes up while records of one kind are filed. -/
def Request.files : Filed → Request → Bool
  | .blocks, .store (.block _) | .blocks, .store (.addBlock _) => true
  | .blocks, .store (.setBlockId _ _) => true
  | .transactions, .store (.transaction _) | .transactions, .store (.addTransaction _) => true
  | .receipts, .store (.hasReceipt _ _) | .receipts, .store (.addReceipt _ _) => true
  | _, _ => false

theorem Request.isFiling_of_files {kind : Filed} {request : Request} (h : request.files kind) :
    request.isFiling := by
  cases kind <;> cases request with
  | store request => cases request <;> first | rfl | cases h
  | node | cache | cancelled => cases h

/-- Whether a request comes up while an operation is stored that has its row in this table. -/
def Request.Places (table : String) : Request → Prop
  | .store (.hasTable name) | .store (.addTable name _ _) | .store (.columns name) => name = table
  | .store (.hasRow name _ _) | .store (.addRow name _) => name = table
  | .cache (.columns name) | .cache (.keepColumns name _) => name = table
  | .store (.operation _) | .store (.addOperation _) => True
  | _ => False

/-- Whether a request is a question about the present. -/
def Request.isQuestion : Request → Bool
  | .node request => request.isLive
  | _ => false

/-- What observers keep: records in the store, and the tokens that a scanner remembers. -/
inductive Derived where
  | accounts
  | assets
  | balances
  | newTokens
  | tokens
  | knownTokens
  | holdings
  | transfers
deriving DecidableEq

/-- Whether a request comes up while observers work that keep nothing but this. They may consult
whatever they like. -/
def Request.observes (kept : List Derived) : Request → Bool
  | .store (.account _) | .store (.asset _) | .store (.token _) | .store (.transfer _ _) => true
  | .store (.addAccount _) => kept.contains .accounts
  | .store (.addAsset _) => kept.contains .assets
  | .store (.putBalance _) => kept.contains .balances
  | .store (.addToken _) => kept.contains .newTokens
  | .store (.setToken _) => kept.contains .tokens
  | .store (.putHolding _) => kept.contains .holdings
  | .store (.addTransfer _) => kept.contains .transfers
  | .cache (.keepToken _) => kept.contains .knownTokens
  | .cache (.asset _ _) | .cache (.keepAsset _ _ _) | .cache (.token _) => true
  | request => request.isQuestion

/-- What the standard observers keep. -/
def Derived.all : List Derived :=
  [.accounts, .assets, .balances, .newTokens, .tokens, .knownTokens, .holdings, .transfers]

theorem Request.observes_of_isQuestion {kept : List Derived} {request : Request}
    (h : request.isQuestion) : request.observes kept := by
  cases request with
  | node => exact h
  | store | cache | cancelled => cases h

/-- Observers that keep less do nothing else. -/
theorem Request.observes_mono {kept kept' : List Derived} (hkept : kept ⊆ kept')
    {request : Request} (h : request.observes kept) : request.observes kept' := by
  have hmem : ∀ d, kept.contains d → kept'.contains d := fun d hd =>
    List.contains_iff_mem.2 (hkept (List.contains_iff_mem.1 hd))
  cases request with
  | store request => cases request <;> first | rfl | exact hmem _ h | cases h
  | cache request => cases request <;> first | rfl | exact hmem _ h | cases h
  | node => exact h
  | cancelled => cases h

/-- The part of the store in which something that observers keep lies. -/
def Derived.part? : Derived → Option Store.Part
  | .assets => some .assets
  | .balances => some .balances
  | .newTokens | .tokens => some .tokens
  | .holdings => some .holdings
  | .transfers => some .transfers
  | .accounts | .knownTokens => none

/-- What observers write to is something that they keep. -/
theorem Request.target?_of_observes {kept : List Derived} {request : Request}
    (h : request.observes kept) {part : Store.Part} (htarget : request.target? = some part) :
    some part ∈ kept.map (·.part?) := by
  have hkept : ∀ d, kept.contains d → d.part? = some part → some part ∈ kept.map (·.part?) :=
    fun d hd hpart => List.mem_map.2 ⟨d, List.contains_iff_mem.1 hd, hpart⟩
  cases request with
  | store request => cases request <;> cases htarget <;> first | exact hkept _ h rfl | cases h
  | node | cache | cancelled => cases htarget

theorem Request.target?_of_places {table : String} {request : Request} (h : request.Places table)
    {part : Store.Part} (htarget : request.target? = some part) :
    part = .tables ∨ part = .operations := by
  cases request with
  | store request =>
    cases request <;> cases htarget <;> first | exact .inl rfl | exact .inr rfl | cases h
  | node | cache | cancelled => cases htarget

theorem Request.isIndexing_of_isFiling {request : Request} (h : request.isFiling) :
    request.isIndexing := by
  cases request with
  | store request => cases request <;> first | rfl | cases h
  | node | cache | cancelled => cases h

theorem Request.isIndexing_of_places {table : String} {request : Request}
    (h : request.Places table) : request.isIndexing := by
  cases request with
  | store request => cases request <;> first | rfl | cases h
  | cache => rfl
  | node | cancelled => cases h

theorem Request.isIndexing_of_observes {kept : List Derived} {request : Request}
    (h : request.observes kept) : request.isIndexing := by
  cases request with
  | store request => cases request <;> first | rfl | cases h
  | cache => rfl
  | node => exact h
  | cancelled => cases h

/-- Whether a request comes up while an operation is stored and shown to the observers. -/
def Request.Handles (request : Request) : Prop :=
  (∃ table, request.Places table) ∨ request.observes Derived.all

theorem Request.isIndexing_of_handles {request : Request} (h : request.Handles) :
    request.isIndexing := by
  rcases h with ⟨table, h⟩ | h
  · exact Request.isIndexing_of_places h
  · exact Request.isIndexing_of_observes h

/-- The error of a reply with which the store fails. -/
def Request.storeFailure? : (request : Request) → request.Reply → Option Error
  | .store _, .error e => if e.isStoreFailure then some e else none
  | _, _ => none

theorem Request.of_storeFailure? {request : Store.Request} {reply : Except Error request.Result}
    {e : Error} (h : Request.storeFailure? (.store request) reply = some e) :
    reply = .error e ∧ e.isStoreFailure := by
  cases reply with
  | ok a => cases h
  | error e' =>
    have hsome : (if e'.isStoreFailure then some e' else none) = some e := h
    split at hsome
    · cases hsome
      exact ⟨rfl, ‹_›⟩
    · cases hsome

theorem Request.isStoreFailure_of_some {request : Request} {reply : request.Reply} {e : Error}
    (h : request.storeFailure? reply = some e) : e.isStoreFailure := by
  cases request with
  | store => exact (Request.of_storeFailure? h).2
  | node | cache | cancelled => cases h

/-- Whether a procedure only makes requests of some kind, and gives up when the store fails. -/
abbrev Heeds {α : Type} (allows : Request → Prop) (p : Procedure α) : Prop :=
  p.Obeys ⟨allows, Request.storeFailure?⟩

section

variable {α β : Type} {allows allows' : Request → Prop}

theorem Heeds.widen {p : Procedure α} (h : Heeds allows p)
    (hwider : ∀ request, allows request → allows' request) : Heeds allows' p :=
  Obeys.mono h hwider fun _ _ _ _ => id

theorem Heeds.and {p : Procedure α} (h : Heeds allows p) (h' : Heeds allows' p) :
    Heeds (fun request => allows request ∧ allows' request) p :=
  Obeys.and h h'

/-- A procedure that only asks questions keeps nothing. -/
theorem Heeds.asking {kept : List Derived} {p : Procedure α} (h : Heeds (·.isQuestion) p) :
    Heeds (·.observes kept) p :=
  h.widen fun _ => Request.observes_of_isQuestion

theorem Heeds.among {kept kept' : List Derived} {p : Procedure α}
    (h : Heeds (·.observes kept) p) (hkept : kept ⊆ kept') : Heeds (·.observes kept') p :=
  h.widen fun _ => Request.observes_mono hkept

theorem Heeds.filing {p : Procedure α} (h : Heeds (·.isFiling) p) : Heeds (·.isIndexing) p :=
  h.widen fun _ => Request.isIndexing_of_isFiling

theorem ofExcept_obeys {rule : Program.Rule interface Error} (x : Except Error α) :
    (Program.ofExcept x : Procedure α).Obeys rule := by
  cases x with
  | ok a => exact .done a
  | error e => exact .fail e

theorem store_heeds {request : Store.Request} (h : allows (.store request)) :
    Heeds allows (store request) := by
  refine .ask h (fun reply e he => ?_) ofExcept_obeys
  rw [(Request.of_storeFailure? he).1]
  rfl

theorem node_heeds {request : Node.Request} (h : allows (.node request)) :
    Heeds allows (node request) :=
  .ask h (fun _ _ he => (nomatch he)) ofExcept_obeys

theorem cache_heeds {request : Cache.Request} (h : allows (.cache request)) :
    Heeds allows (cache request) :=
  .ask h (fun _ _ he => (nomatch he)) .done

theorem cancelled_heeds (h : allows .cancelled) : Heeds allows cancelled :=
  .ask h (fun _ _ he => (nomatch he)) .done

theorem heeds_store {request : Store.Request} {f : request.Result → Procedure α}
    (h : allows (.store request)) (hf : ∀ a, Heeds allows (f a)) :
    Heeds allows ((store request).bind f) :=
  Obeys.bind (store_heeds h) hf

theorem heeds_node {request : Node.Request} {f : request.Result → Procedure α}
    (h : allows (.node request)) (hf : ∀ a, Heeds allows (f a)) :
    Heeds allows ((node request).bind f) :=
  Obeys.bind (node_heeds h) hf

theorem heeds_cache {request : Cache.Request} {f : request.Result → Procedure α}
    (h : allows (.cache request)) (hf : ∀ a, Heeds allows (f a)) :
    Heeds allows ((cache request).bind f) :=
  Obeys.bind (cache_heeds h) hf

theorem heeds_decode {x : Except Error β} {f : β → Procedure α} (hf : ∀ b, Heeds allows (f b)) :
    Heeds allows ((Program.ofExcept x).bind f) :=
  Obeys.bind (ofExcept_obeys x) hf

/-- An observer may fail, but not hide a failure of the store. -/
theorem passOver_heeds {p : Procedure Unit} (h : Heeds allows p) :
    Heeds allows (Observer.passOver p) := by
  refine Obeys.recover h (fun request reply e he => ?_) fun e => ?_
  · exact if_pos (Request.isStoreFailure_of_some he)
  · split
    · exact .fail e
    · exact .done ()

/-- Questions have no part in the store, so their failure may be passed over. -/
theorem question_attempt_heeds {p : Procedure β} {f : Except Error β → Procedure α}
    (hp : Heeds (·.isQuestion) p) (hwider : ∀ request, request.isQuestion → allows request)
    (hf : ∀ r, Heeds allows (f r)) : Heeds allows (p.attempt.bind f) := by
  refine Obeys.attempt_bind hp hwider (fun request reply e hquestion he => ?_) hf
  cases request with
  | store => cases hquestion
  | node | cache | cancelled => cases he

end

/-! ## Storing the chain -/

/-- The columns of a table are looked for without a word about operations. -/
theorem columns_heeds (typeName : String) (sample : Payload) :
    Heeds
      (fun request => request.Places (WideTable.name typeName) ∧
        request.target? ≠ some .operations)
      (WideTable.columns typeName sample) := by
  refine heeds_cache ⟨rfl, nofun⟩ ?_
  intro known
  cases known with
  | some known => exact .done _
  | none =>
    -- a table that is there is not made again
    have hrest : Heeds
        (fun request => request.Places (WideTable.name typeName) ∧
          request.target? ≠ some .operations)
        ((store (.columns (WideTable.name typeName))).bind fun found =>
          (cache (.keepColumns (WideTable.name typeName) found)).bind fun _ => .done found) :=
      heeds_store ⟨rfl, nofun⟩ fun found => heeds_cache ⟨rfl, nofun⟩ fun _ => .done _
    refine heeds_store ⟨rfl, nofun⟩ ?_
    intro there
    cases there with
    | true => exact hrest
    | false => exact heeds_store ⟨rfl, nofun⟩ fun _ => hrest

theorem recordBlock_files (b : Block) : Heeds (·.files .blocks) (recordBlock b) := by
  refine heeds_decode ?_
  intro record
  refine heeds_store rfl ?_
  intro found
  cases found with
  | some found => exact .done _
  | none => exact heeds_store rfl fun _ => .done _

theorem recordPreviousId_files (b : Block) : Heeds (·.files .blocks) (recordPreviousId b) := by
  unfold recordPreviousId
  split
  · exact .done _
  refine heeds_decode ?_
  intro number
  refine heeds_store rfl ?_
  intro previous
  cases previous with
  | none => exact .done _
  | some previous =>
    show Heeds _ (if previous.id = "" then _ else _)
    split
    · exact store_heeds rfl
    · exact .done _

theorem recordTransaction_files (tx : Transaction) :
    Heeds (·.files .transactions) (recordTransaction tx) := by
  refine heeds_store rfl ?_
  intro found
  cases found with
  | some found => exact .done _
  | none => exact heeds_decode fun record => heeds_store rfl fun _ => .done _

theorem recordOperation_heeds (op : Placed) :
    Heeds (·.Places (WideTable.name op.typeName)) (recordOperation op) := by
  have hcolumns : Heeds (·.Places (WideTable.name op.typeName))
      (WideTable.columns op.typeName op.payload) :=
    (columns_heeds op.typeName op.payload).widen fun _ h => h.1
  have hrecord : Heeds (·.Places (WideTable.name op.typeName))
      ((store (.operation (placeId op.blockNumber op.transaction op.index))).bind fun found =>
        if found.isSome then .done ()
        else (Program.ofExcept op.record).bind fun record => store (.addOperation record)) := by
    refine heeds_store trivial ?_
    intro found
    cases found with
    | some found => exact .done _
    | none => exact heeds_decode fun record => store_heeds trivial
  have hensure : Heeds (·.Places (WideTable.name op.typeName))
      (WideTable.ensure op.typeName op.payload) :=
    Obeys.bind hcolumns fun _ => .done _
  have hlacks : Heeds (·.Places (WideTable.name op.typeName))
      (WideTable.lacksRow op.typeName op.transaction op.index) :=
    heeds_store rfl fun _ => .done _
  refine Obeys.bind hensure ?_
  intro _
  refine Obeys.bind hlacks ?_
  intro lacksRow
  cases lacksRow with
  | true =>
    refine Obeys.bind ?_ fun _ => hrecord
    exact Obeys.bind hcolumns fun known => store_heeds rfl
  | false => exact hrecord

theorem recordReceipts_files (receipts : List Receipt) :
    Heeds (·.files .receipts) (recordReceipts receipts) := by
  induction receipts with
  | nil => exact .done _
  | cons receipt rest ih =>
    refine heeds_decode ?_
    intro (record, events)
    refine heeds_store rfl ?_
    intro there
    cases there with
    | true => exact ih
    | false => exact heeds_store rfl fun _ => Obeys.bind ih fun _ => .done _

theorem Heeds.filed {α : Type} {p : Procedure α} {kind : Filed} (h : Heeds (·.files kind) p) :
    Heeds (·.isFiling) p :=
  h.widen fun _ => Request.isFiling_of_files

theorem recordBlock_heeds (b : Block) : Heeds (·.isFiling) (recordBlock b) :=
  (recordBlock_files b).filed

theorem recordPreviousId_heeds (b : Block) : Heeds (·.isFiling) (recordPreviousId b) :=
  (recordPreviousId_files b).filed

theorem recordTransaction_heeds (tx : Transaction) : Heeds (·.isFiling) (recordTransaction tx) :=
  (recordTransaction_files tx).filed

theorem recordReceipts_heeds (receipts : List Receipt) :
    Heeds (·.isFiling) (recordReceipts receipts) :=
  (recordReceipts_files receipts).filed

/-! ## Questions to tokens -/

theorem text_heeds (caller contract method : String) :
    Heeds (·.isQuestion) (Observer.Question.text caller contract method) :=
  heeds_node rfl fun _ => .done _

theorem integer_heeds (caller contract method argument : String) :
    Heeds (·.isQuestion) (Observer.Question.integer caller contract method argument) := by
  refine heeds_node rfl ?_
  intro raw
  exact ofExcept_obeys (Amount.ofResult raw)

theorem description_heeds (caller contract : String) :
    Heeds (·.isQuestion) (Observer.Question.description caller contract) := by
  refine Obeys.bind (text_heeds caller contract "tokenName") ?_
  intro name
  refine Obeys.bind (text_heeds caller contract "tokenSymbol") ?_
  intro symbol
  refine Obeys.bind (integer_heeds caller contract "precision" "") ?_
  intro places
  exact heeds_decode fun precision => .done _

theorem describeToken_heeds (caller contract : String) (token : TokenRecord) :
    Heeds (·.isQuestion) (Observer.describeToken caller contract token) := by
  refine question_attempt_heeds (description_heeds caller contract) (fun _ => id)
    fun described => ?_
  cases described with
  | ok info | error e =>
    refine question_attempt_heeds (integer_heeds caller contract "totalSupply" "")
      (fun _ => id) fun supply => ?_
    cases supply <;> exact .done _

/-! ## Observers -/

theorem recordAccount_heeds (seen : Observation) :
    Heeds (·.observes [.accounts]) (Observer.recordAccount seen) := by
  unfold Observer.recordAccount
  split
  · exact .done _
  split
  · refine heeds_store rfl fun found => ?_
    cases found with
    | some found => exact .done _
    | none => exact store_heeds rfl
  · exact .done _

theorem recordToken_heeds (caller : String) (seen : Observation) (r : Registration) :
    Heeds (·.observes [.newTokens]) (Observer.recordToken caller seen r) := by
  refine heeds_store rfl ?_
  intro found
  cases found with
  | some found => exact .done _
  | none =>
    refine heeds_decode ?_
    intro token
    exact Obeys.bind (describeToken_heeds caller token.id token).asking fun _ => store_heeds rfl

theorem recordRegistration_heeds (caller : String) (seen : Observation) :
    Heeds (·.observes [.newTokens]) (Observer.recordRegistration caller seen) := by
  unfold Observer.recordRegistration
  split
  · refine heeds_decode fun registration => ?_
    split
    · exact recordToken_heeds caller seen registration
    · exact .done _
  · exact .done _

theorem registerAssets_heeds (owner : Refresher) (wanted : String) (assets : List Asset)
    (found : Option AssetRecord) :
    Heeds (·.observes [.assets]) (Observer.registerAssets owner wanted assets found) := by
  induction assets generalizing found with
  | nil => exact .done _
  | cons asset rest ih =>
    refine heeds_decode ?_
    intro record
    have hkeep : Heeds (·.observes [.assets])
        ((cache (.keepAsset owner record.id record)).bind fun _ =>
          Observer.registerAssets owner wanted rest
            (if record.id = wanted then some record else found)) :=
      heeds_cache rfl fun _ => ih _
    refine heeds_store rfl ?_
    intro known
    cases known with
    | some known => exact hkeep
    | none => exact heeds_store rfl fun _ => hkeep

theorem knownAsset_heeds (owner : Refresher) (id : String) :
    Heeds (·.observes [.assets]) (Observer.knownAsset owner id) := by
  refine heeds_cache rfl ?_
  intro remembered
  cases remembered with
  | some asset => exact .done _
  | none =>
    refine heeds_store rfl ?_
    intro stored
    cases stored with
    | some asset => exact heeds_cache rfl fun _ => .done _
    | none => exact heeds_node rfl fun listed => registerAssets_heeds owner id listed none

theorem refreshBalance_heeds (owner : Refresher) (address asset : String) :
    Heeds (·.observes [.assets, .balances]) (Observer.refreshBalance owner address asset) := by
  refine heeds_node rfl ?_
  intro balances
  refine Obeys.bind ((knownAsset_heeds owner asset).among (by decide)) ?_
  intro found
  cases found with
  | none => exact .fail _
  | some record => exact store_heeds rfl

theorem refreshTransfer_heeds (seen : Observation) :
    Heeds (·.observes [.assets, .balances]) (Observer.refreshTransfer seen) := by
  unfold Observer.refreshTransfer
  split
  · exact .done _
  refine heeds_decode ?_
  intro sender
  refine heeds_decode ?_
  intro receiver
  refine heeds_decode ?_
  intro asset
  refine Obeys.bind (refreshBalance_heeds .transfers sender asset) ?_
  intro _
  split
  · exact .done _
  · exact refreshBalance_heeds .transfers receiver asset

theorem refreshNamed_heeds (seen : Observation) :
    Heeds (·.observes [.assets, .balances]) (Observer.refreshNamed seen) := by
  unfold Observer.refreshNamed
  split
  · exact refreshBalance_heeds .amounts _ _
  · exact .done _

/-! ## Events of tokens -/

theorem isKnown_heeds (contract : String) :
    Heeds (·.observes [.knownTokens]) (Observer.isKnown contract) := by
  refine heeds_cache rfl ?_
  intro remembered
  cases remembered with
  | true => exact .done _
  | false =>
    refine heeds_store rfl ?_
    intro stored
    cases stored with
    | some token => exact heeds_cache rfl fun _ => .done _
    | none => exact .done _

theorem followSetUp_heeds (caller contract : String) :
    Heeds (·.observes [.tokens]) (Observer.followSetUp caller contract) := by
  refine heeds_store rfl ?_
  intro found
  cases found with
  | none => exact .done _
  | some token =>
    exact Obeys.bind (describeToken_heeds caller contract _).asking fun _ => store_heeds rfl

theorem refreshHolding_heeds (caller contract owner : String) (precision : Option Nat) :
    Heeds (·.observes [.holdings]) (Observer.refreshHolding caller contract owner precision) := by
  have hquestion := integer_heeds caller contract "balanceOf" owner
  refine Obeys.bind hquestion.asking ?_
  intro raw
  exact store_heeds rfl

theorem refreshSupply_heeds (caller contract : String) :
    Heeds (·.observes [.tokens]) (Observer.refreshSupply caller contract) := by
  have hquestion := integer_heeds caller contract "totalSupply" ""
  refine Obeys.bind hquestion.asking ?_
  intro supply
  refine heeds_store rfl ?_
  intro found
  cases found with
  | none => exact .done _
  | some token => exact store_heeds rfl

theorem refreshOwners_heeds (caller contract : String) (precision : Option Nat)
    (owners : List String) :
    Heeds (·.observes [.holdings]) (Observer.refreshOwners caller contract precision owners) := by
  induction owners with
  | nil => exact .done _
  | cons owner rest ih =>
    exact Obeys.bind (passOver_heeds (refreshHolding_heeds caller contract owner precision))
      fun _ => ih

/-- What a transfer leads to beside its record: the balances of its parties are refreshed, and the
supply if it changed. -/
def refreshParties (caller contract : String) (transfer : Transfer) : Procedure Unit :=
  (store (.token contract)).bind fun token =>
    (Observer.refreshOwners caller contract ((token.bind (·.precision)).bind Observer.places)
      transfer.parties).bind fun _ =>
        if transfer.mintsOrBurns then Observer.passOver (Observer.refreshSupply caller contract)
        else .done ()

theorem refreshParties_heeds (caller contract : String) (transfer : Transfer) :
    Heeds (·.observes [.tokens, .holdings]) (refreshParties caller contract transfer) := by
  refine heeds_store rfl ?_
  intro token
  have howners := refreshOwners_heeds caller contract
    ((token.bind (·.precision)).bind Observer.places) transfer.parties
  refine Obeys.bind (howners.among (by decide)) ?_
  intro _
  split
  · exact passOver_heeds ((refreshSupply_heeds caller contract).among (by decide))
  · exact .done _

theorem followTransfer_heeds (caller : String) (seen : Observation) (told : Event) :
    Heeds (·.observes [.tokens, .holdings, .transfers])
      (Observer.followTransfer caller seen told) := by
  refine heeds_decode ?_
  intro transfer
  refine heeds_decode ?_
  intro operation
  have hparties := refreshParties_heeds caller told.contract transfer
  have hrefresh := hparties.widen fun _ => Request.observes_mono
    (show [.tokens, .holdings] ⊆ [Derived.tokens, .holdings, .transfers] by decide)
  refine heeds_store rfl ?_
  intro recorded
  cases recorded with
  | some recorded => exact hrefresh
  | none => exact heeds_decode fun record => heeds_store rfl fun _ => hrefresh

theorem followEvent_heeds (caller : String) (seen : Observation) (told : Event) :
    Heeds (·.observes [.tokens, .holdings, .transfers])
      (Observer.followEvent caller seen told) := by
  unfold Observer.followEvent
  split
  · exact (followSetUp_heeds caller told.contract).among (by decide)
  split
  · exact followTransfer_heeds caller seen told
  · exact .done _

theorem followEvents_heeds (caller : String) (seen : Observation) (events : List Event) :
    Heeds (·.observes [.tokens, .knownTokens, .holdings, .transfers])
      (Observer.followEvents caller seen events) := by
  induction events with
  | nil => exact .done _
  | cons told rest ih =>
    refine Obeys.bind ((isKnown_heeds told.contract).among (by decide)) ?_
    intro known
    cases known with
    | true =>
      have hevent : Heeds (·.observes [.tokens, .knownTokens, .holdings, .transfers])
          (Observer.followEvent caller seen told) :=
        (followEvent_heeds caller seen told).among (by decide)
      exact Obeys.bind (passOver_heeds hevent) fun _ => ih
    | false => exact ih

theorem refreshDeposits_heeds (holdings : List (String × String)) :
    Heeds (·.observes [.assets, .balances]) (Observer.refreshDeposits holdings) := by
  induction holdings with
  | nil => exact .done _
  | cons holding rest ih =>
    exact Obeys.bind (passOver_heeds (refreshBalance_heeds .deposits holding.1 holding.2))
      fun _ => ih

theorem followReceipt_heeds (caller : String) (seen : Observation) :
    Heeds (·.observes Derived.all) (Observer.followReceipt caller seen) := by
  unfold Observer.followReceipt
  split
  · exact .done _
  · exact Obeys.bind ((followEvents_heeds caller seen _).among (by decide)) fun _ =>
      (refreshDeposits_heeds _).among (by decide)

/-- A pipeline of observers that give up when the store fails does so as well. -/
theorem applyAll_heeds {allows : Request → Prop} {observers : List (Observer interface)}
    {seen : Observation} (h : ∀ observer ∈ observers, Heeds allows (observer.apply seen)) :
    Heeds allows (Observer.applyAll observers seen) := by
  induction observers with
  | nil => exact .done _
  | cons observer rest ih =>
    refine Obeys.bind (passOver_heeds (h observer (by simp))) ?_
    intro _
    exact ih fun other hother => h other (by simp [hother])

/-- The standard observers are of this kind. -/
theorem standard_heeds (caller : String) (seen : Observation) :
    Heeds (·.observes Derived.all) (Observer.applyAll (Observer.standard caller) seen) := by
  apply applyAll_heeds
  unfold Observer.standard
  simp only [List.forall_mem_cons]
  exact ⟨(recordAccount_heeds seen).among (by decide),
    (recordRegistration_heeds caller seen).among (by decide),
    (refreshTransfer_heeds seen).among (by decide), (refreshNamed_heeds seen).among (by decide),
    followReceipt_heeds caller seen, nofun⟩

/-! ## Blocks -/

/-- Whether a request comes up while a block is processed. -/
def Request.isProcessing : Request → Bool
  | .node (.receipts _) => true
  | request => request.isIndexing

/-- The error of a reply with which the processing of a block ends: the store fails, or the receipts
of a transaction are not given. -/
def Request.breaking? : (request : Request) → request.Reply → Option Error
  | .node (.receipts _), .error e => some e
  | request, reply => request.storeFailure? reply

/-- Whether a request writes to the config. -/
def Request.isConfigWrite : Request → Bool
  | .store (.putConfig _ _) => true
  | _ => false

theorem Request.isConfigWrite_of_isProcessing {request : Request} (h : request.isProcessing) :
    request.isConfigWrite = false := by
  cases request with
  | store request =>
    cases request with
    | putConfig => cases h
    | _ => rfl
  | node | cache | cancelled => rfl

theorem Request.breaking?_of_storeFailure? {request : Request} {reply : request.Reply} {e : Error}
    (h : request.storeFailure? reply = some e) : request.breaking? reply = some e := by
  cases request with
  | node => cases h
  | store | cache | cancelled => exact h

/-- Whether a procedure goes about a block as it should. -/
abbrev Processes {α : Type} (p : Procedure α) : Prop :=
  p.Obeys ⟨fun request => Request.isProcessing request, Request.breaking?⟩

theorem Request.isProcessing_of_isIndexing {request : Request} (h : request.isIndexing) :
    request.isProcessing := by
  unfold Request.isProcessing
  split
  · rfl
  · exact h

/-- Where receipts are not asked for, only the store can put an end to things. -/
theorem Heeds.processes {α : Type} {p : Procedure α} (h : Heeds (·.isIndexing) p) :
    Processes p := by
  refine Obeys.mono h (fun _ => Request.isProcessing_of_isIndexing) ?_
  intro request reply e hindexing he
  cases request with
  | node request =>
    cases request with
    | block | receipts => cases hindexing
    | invoke | assets | balances => exact he
  | store | cache | cancelled => exact he

theorem askReceipts_processes (tx : Transaction) : Processes (askReceipts tx) := by
  refine Obeys.bind (.ask rfl (fun reply e he => ?_) fun reply => ?_) fun received => .done _
  · cases reply with
    | ok received => cases he
    | error e' =>
      cases he
      rfl
  · cases reply with
    | ok received => exact .done received
    | error e => exact .fail e

/-- Receipts are asked for, or nothing is. -/
theorem neededReceipts_heeds {allows : Request → Prop} {tx : Transaction}
    (h : allows (.node (.receipts tx.id))) : Heeds allows (neededReceipts tx) := by
  unfold neededReceipts
  split
  · exact heeds_node h fun received => .done _
  · exact .done []

theorem neededReceipts_processes (tx : Transaction) : Processes (neededReceipts tx) := by
  unfold neededReceipts
  split
  · exact askReceipts_processes tx
  · exact .done []

section

variable (interval : Nat) (caller : String) (b : Block)

theorem indexOperation_handles (tx : Transaction) (received : List Receipt) (position : Nat)
    (raw : Json) :
    Heeds Request.Handles
      (indexOperation ⟨interval, Observer.standard caller⟩ b tx received position raw) := by
  refine heeds_decode ?_
  intro (typeCode, payload)
  refine Obeys.bind ((recordOperation_heeds _).widen fun _ h => .inl ⟨_, h⟩) ?_
  intro _
  exact (standard_heeds caller _).widen fun _ h => .inr h

theorem indexOperations_handles (tx : Transaction) (received : List Receipt) (position : Nat)
    (raws : List Json) :
    Heeds Request.Handles
      (indexOperations ⟨interval, Observer.standard caller⟩ b tx received position raws) := by
  induction raws generalizing position with
  | nil => exact .done _
  | cons raw rest ih =>
    exact Obeys.bind (indexOperation_handles interval caller b tx received position raw) fun _ =>
      ih (position + 1)

theorem indexOperations_heeds (tx : Transaction) (received : List Receipt) (position : Nat)
    (raws : List Json) :
    Heeds (·.isIndexing)
      (indexOperations ⟨interval, Observer.standard caller⟩ b tx received position raws) :=
  (indexOperations_handles interval caller b tx received position raws).widen
    fun _ => Request.isIndexing_of_handles

theorem indexTransaction_processes (tx : Transaction) :
    Processes (indexTransaction ⟨interval, Observer.standard caller⟩ b tx) := by
  refine Obeys.bind (neededReceipts_processes tx) fun received => Heeds.processes ?_
  refine Obeys.bind (recordTransaction_heeds tx).filing ?_
  intro _
  refine Obeys.bind (indexOperations_heeds interval caller b tx received 0 tx.operations) ?_
  intro _
  exact Obeys.bind (recordReceipts_heeds received).filing fun _ => .done _

theorem indexTransactions_processes (txs : List Transaction) :
    Processes (indexTransactions ⟨interval, Observer.standard caller⟩ b txs) := by
  induction txs with
  | nil => exact .done _
  | cons tx rest ih =>
    exact Obeys.bind (indexTransaction_processes interval caller b tx) fun _ => ih

/-- The processing of a block ends where the store fails or receipts are not given. -/
theorem indexBlock_processes :
    Processes (indexBlock ⟨interval, Observer.standard caller⟩ b) := by
  refine Obeys.bind (recordBlock_heeds b).filing.processes ?_
  intro _
  refine Obeys.bind (recordPreviousId_heeds b).filing.processes ?_
  intro _
  exact indexTransactions_processes interval caller b b.transactions

end

end ChainIndex.Scan
