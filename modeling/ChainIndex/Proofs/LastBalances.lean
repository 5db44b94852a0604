import ChainIndex.Proofs.Purses
import ChainIndex.Proofs.TransferHistory
import ChainIndex.Proofs.TwoRuns

/-!
# Balances and the last answers

However often balances are refreshed and token transfers are followed, by whichever observers and
with whatever between the calls: there is one row for each purse, and its amount is what the last
refresh of it that was completed has found. A refresh that fails changes no row and one that is
completed changes one, and what an event says of an amount has no part in any of this.
-/

namespace ChainIndex.Scan

open Observer (refreshOwners refreshSupply followTransfer)
open Store (Memory)

section

variable {ω : Type} {env : Surroundings ω} {first : Memory} {past : Past ω} {s t : Situation ω}

/-! ## What a refresh changes -/

/-- A refresh of a purse. -/
inductive RefreshOf : Purse → Procedure Unit → Prop where
  | native (owner : Refresher) (address asset : String) :
      RefreshOf (.native address asset) (Observer.refreshBalance owner address asset)
  | token (caller contract owner : String) (precision : Option Nat) :
      RefreshOf (.token contract owner) (Observer.refreshHolding caller contract owner precision)

/-- What observes without touching balances leaves them as they are. -/
theorem balances_run (env : Surroundings ω) {α : Type} {kept : List Derived} {p : Procedure α}
    (hp : Heeds (·.observes kept) p) (hbalances : some .balances ∉ kept.map (·.part?))
    (hholdings : some .holdings ∉ kept.map (·.part?)) (s : Situation ω) :
    (Program.run env.answer p s).2.memory.balances = s.memory.balances ∧
      (Program.run env.answer p s).2.memory.holdings = s.memory.holdings := by
  refine hp.keeps (M := fun s' : Situation ω => s'.memory.balances = s.memory.balances ∧
    s'.memory.holdings = s.memory.holdings) (fun request s' hobserves ⟨hb, hh⟩ => ?_) ⟨rfl, rfl⟩
  have hb' : (env.answer request s').2.memory.balances = s'.memory.balances :=
    env.answer_same (fun htarget => hbalances (Request.target?_of_observes hobserves htarget)) s'
  have hh' : (env.answer request s').2.memory.holdings = s'.memory.holdings :=
    env.answer_same (fun htarget => hholdings (Request.target?_of_observes hobserves htarget)) s'
  exact ⟨hb'.trans hb, hh'.trans hh⟩

/-- What a procedure leads to that refreshes a purse: nothing if it fails, and otherwise another
amount in the purse and nothing else. -/
structure Changes {α : Type} (purse : Purse) (s : Situation ω) (r : Except Error α)
    (s' : Situation ω) : Prop where
  failed : ∀ e, r = .error e →
    s'.memory.balances = s.memory.balances ∧ s'.memory.holdings = s.memory.holdings
  done : ∀ a, r = .ok a → ∃ amount, ∀ other : Purse,
    other.amount? s'.memory = if purse = other then some amount else other.amount? s.memory

/-- Nothing is changed by a request that fails to set a purse, and nothing else by one that does. -/
theorem changes_set (purse : Purse) (amount : String) (s : Situation ω) :
    Changes purse s (Program.run env.answer (store (purse.put amount)) s).1
      (Program.run env.answer (store (purse.put amount)) s).2 := by
  rw [env.run_store]
  obtain ⟨⟨done, hdone⟩, hamounts⟩ := purse.answer_put amount s.memory
  obtain ⟨detail, world, hstore⟩ | ⟨world, hstore⟩ :=
    env.answer_store_cases (purse.put amount) s
  · rw [hstore]
    exact ⟨fun _ _ => ⟨rfl, rfl⟩, nofun⟩
  · rw [hstore]
    refine ⟨fun e herror => ?_, fun _ _ => ⟨amount, hamounts⟩⟩
    rw [hdone] at herror
    cases herror

/-- What has left the balances alone before does not matter. -/
theorem changes_bind {α β : Type} {purse : Purse} (kept : List Derived) {p : Procedure α}
    {f : α → Procedure β} (hp : Heeds (·.observes kept) p)
    (hbalances : some .balances ∉ kept.map (·.part?))
    (hholdings : some .holdings ∉ kept.map (·.part?))
    (hf : ∀ a s', Changes purse s' (Program.run env.answer (f a) s').1
      (Program.run env.answer (f a) s').2) (s : Situation ω) :
    Changes purse s (Program.run env.answer (p.bind f) s).1
      (Program.run env.answer (p.bind f) s).2 := by
  obtain ⟨hb, hh⟩ := balances_run env hp hbalances hholdings s
  rw [Program.run_bind]
  generalize Program.run env.answer p s = first at hb hh ⊢
  obtain ⟨r, s'⟩ := first
  cases r with
  | error e => exact ⟨fun _ _ => ⟨hb, hh⟩, nofun⟩
  | ok a =>
    refine ⟨fun e herror => ?_, fun b hdone => ?_⟩
    · obtain ⟨hb', hh'⟩ := (hf a s').failed e herror
      exact ⟨hb'.trans hb, hh'.trans hh⟩
    · obtain ⟨amount, hamount⟩ := (hf a s').done b hdone
      refine ⟨amount, fun other => ?_⟩
      rw [← other.amount?_congr hb hh]
      exact hamount other

theorem RefreshOf.changes {purse : Purse} {p : Procedure Unit} (h : RefreshOf purse p)
    (s : Situation ω) :
    Changes purse s (Program.run env.answer p s).1 (Program.run env.answer p s).2 := by
  cases h with
  | native owner address asset =>
    refine changes_bind [] (node_heeds rfl) (by decide) (by decide) (fun balances => ?_) s
    refine changes_bind _ (knownAsset_heeds owner asset) (by decide) (by decide) fun record? s' => ?_
    cases record? with
    | none => exact ⟨fun _ _ => ⟨rfl, rfl⟩, nofun⟩
    | some record => exact changes_set (.native address asset) _ s'
  | token caller contract owner precision =>
    refine changes_bind [] (integer_heeds caller contract "balanceOf" owner).asking
      (by decide) (by decide) (fun raw s' => ?_) s
    exact changes_set (.token contract owner) _ s'

/-! ## What an event says of an amount -/

/-- Whether a request comes up while the balances of a transfer's parties are refreshed, and the
supply. -/
def Request.followsTransfer : Request → Bool
  | .store (.token _) | .store (.putHolding _) | .store (.setToken _) => true
  | request => request.isQuestion

theorem refreshParties_followsTransfer (caller contract : String) (transfer : Transfer) :
    Heeds (·.followsTransfer) (refreshParties caller contract transfer) := by
  have hasks : ∀ request : Request, request.isQuestion → request.followsTransfer := by
    intro request hquestion
    cases request with
    | node => exact hquestion
    | store | cache | cancelled => cases hquestion
  have howners : ∀ precision owners,
      Heeds (·.followsTransfer) (refreshOwners caller contract precision owners) := by
    intro precision owners
    induction owners with
    | nil => exact .done _
    | cons owner rest ih =>
      refine Program.Obeys.bind (passOver_heeds ?_) fun _ => ih
      exact Program.Obeys.bind ((integer_heeds caller contract "balanceOf" owner).widen hasks)
        fun _ => store_heeds rfl
  have hsupply : Heeds (·.followsTransfer) (refreshSupply caller contract) := by
    refine Program.Obeys.bind ((integer_heeds caller contract "totalSupply" "").widen hasks)
      fun supply => heeds_store rfl fun found => ?_
    cases found with
    | none => exact .done _
    | some token => exact store_heeds rfl
  refine heeds_store rfl fun token => Program.Obeys.bind (howners _ _) fun _ => ?_
  split
  · exact passOver_heeds hsupply
  · exact .done _

/-- A transfer on record without its amount. -/
def hideAmount (record : TransferRecord) : TransferRecord :=
  { record with amount := "" }

/-- A store in which the amounts of recorded transfers are not seen. -/
def hideAmounts (m : Memory) : Memory :=
  { m with transfers := m.transfers.map hideAmount }

/-- A situation in which the amounts of recorded transfers are not seen. -/
def Situation.hideAmounts (s : Situation ω) : Situation ω :=
  { s with memory := Scan.hideAmounts s.memory }

/-- Two situations that differ in the amounts of recorded transfers at most. -/
def AlikeButAmounts (s t : Situation ω) : Prop :=
  s.hideAmounts = t.hideAmounts

/-- Surroundings in which it does not matter for a recorded transfer what its amount is. -/
def Surroundings.BlindToAmounts (env : Surroundings ω) : Prop :=
  ∀ record, env.fault (.addTransfer (hideAmount record)) = env.fault (.addTransfer record)

/-- Where transfers are not looked at, it makes no difference that their amounts are not seen. -/
theorem answer_hideAmounts (env : Surroundings ω) {request : Request}
    (hfollows : request.followsTransfer) (s : Situation ω) :
    env.answer request s.hideAmounts =
      ((env.answer request s).1, (env.answer request s).2.hideAmounts) := by
  cases request with
  | store request =>
    cases hfault : env.fault request s.world with
    | mk fault world =>
    have hfault' : env.fault request s.hideAmounts.world = (fault, world) := hfault
    cases fault with
    | some detail =>
      rw [env.answer_of_fault hfault, env.answer_of_fault hfault']
      rfl
    | none =>
      rw [env.answer_of_no_fault hfault, env.answer_of_no_fault hfault']
      cases request <;> first | rfl | cases hfollows
  | node request => rfl
  | cache | cancelled => cases hfollows

theorem AlikeButAmounts.answer (h : AlikeButAmounts s t) {request : Request}
    (hfollows : request.followsTransfer) :
    (env.answer request s).1 = (env.answer request t).1 ∧
      AlikeButAmounts (env.answer request s).2 (env.answer request t).2 := by
  have hs := answer_hideAmounts env hfollows s
  rw [show s.hideAmounts = t.hideAmounts from h, answer_hideAmounts env hfollows t] at hs
  exact ⟨(congrArg Prod.fst hs).symm, (congrArg Prod.snd hs).symm⟩

/-- What is read of a recorded transfer without the amounts is what is read with them, but for the
amount. -/
theorem answer_transfer_hideAmounts (env : Surroundings ω) (transaction : String)
    (operation : Int) (s : Situation ω) :
    env.answer (.store (.transfer transaction operation)) s.hideAmounts =
      ((env.answer (.store (.transfer transaction operation)) s).1.map (Option.map hideAmount),
        (env.answer (.store (.transfer transaction operation)) s).2.hideAmounts) := by
  cases hfault : env.fault (.transfer transaction operation) s.world with
  | mk fault world =>
  have hfault' : env.fault (.transfer transaction operation) s.hideAmounts.world =
      (fault, world) := hfault
  cases fault with
  | some detail =>
    rw [env.answer_of_fault hfault, env.answer_of_fault hfault']
    rfl
  | none =>
    rw [env.answer_of_no_fault hfault, env.answer_of_no_fault hfault']
    have hfound : s.hideAmounts.memory.transfer? transaction operation =
        (s.memory.transfer? transaction operation).map hideAmount := List.find?_map
    exact Prod.ext (congrArg Except.ok hfound) rfl

/-- Whether a transfer is on record is known without its amount. -/
theorem AlikeButAmounts.transfer (h : AlikeButAmounts s t) (env : Surroundings ω)
    (transaction : String) (operation : Int) :
    (env.answer (.store (.transfer transaction operation)) s).1.map Option.isSome =
        (env.answer (.store (.transfer transaction operation)) t).1.map Option.isSome ∧
      AlikeButAmounts (env.answer (.store (.transfer transaction operation)) s).2
        (env.answer (.store (.transfer transaction operation)) t).2 := by
  have hs := answer_transfer_hideAmounts env transaction operation s
  rw [show s.hideAmounts = t.hideAmounts from h, answer_transfer_hideAmounts] at hs
  have hisSome : ∀ r : Except Error (Option TransferRecord),
      (r.map (Option.map hideAmount)).map Option.isSome = r.map Option.isSome := by
    intro r
    cases r with
    | ok found => exact congrArg Except.ok Option.isSome_map
    | error e => rfl
  refine ⟨?_, (congrArg Prod.snd hs).symm⟩
  have hreply := congrArg (Except.map Option.isSome) (congrArg Prod.fst hs)
  exact ((hisSome _).symm.trans hreply.symm).trans (hisSome _)

/-- A transfer is recorded, or refused, whatever its amount is. -/
theorem addTransfer_hideAmount (record : TransferRecord) (m : Memory) :
    Memory.answer (.addTransfer (hideAmount record)) (hideAmounts m) =
      ((Memory.answer (.addTransfer record) m).1,
        hideAmounts (Memory.answer (.addTransfer record) m).2) := by
  have htaken : (m.transfers.map hideAmount).any (fun old =>
      old.transaction == record.transaction && old.operation == record.operation) =
      m.transfers.any fun old =>
        old.transaction == record.transaction && old.operation == record.operation := by
    rw [List.any_map]
    rfl
  by_cases hany : m.transfers.any fun old =>
      old.transaction == record.transaction && old.operation == record.operation
  · have hold : m.addTransfer record = .error _ := if_pos hany
    have hnew : (hideAmounts m).addTransfer (hideAmount record) = .error _ :=
      if_pos (htaken.trans hany)
    simp only [Memory.answer, hold, hnew]
    rfl
  · have hold : m.addTransfer record = .ok _ := if_neg hany
    have hnew : (hideAmounts m).addTransfer (hideAmount record) = .ok _ :=
      if_neg (htaken ▸ hany)
    simp only [Memory.answer, hold, hnew]
    simp only [Store.Memory.written, hideAmounts, List.map_append, List.map_cons, List.map_nil]

theorem answer_addTransfer_hideAmount (hblind : env.BlindToAmounts) (record : TransferRecord)
    (s : Situation ω) :
    env.answer (.store (.addTransfer (hideAmount record))) s.hideAmounts =
      ((env.answer (.store (.addTransfer record)) s).1,
        (env.answer (.store (.addTransfer record)) s).2.hideAmounts) := by
  cases hfault : env.fault (.addTransfer record) s.world with
  | mk fault world =>
  have hfault' : env.fault (.addTransfer (hideAmount record)) s.hideAmounts.world =
      (fault, world) := (congrFun (hblind record) s.world).trans hfault
  cases fault with
  | some detail =>
    rw [env.answer_of_fault hfault, env.answer_of_fault hfault']
    rfl
  | none =>
    rw [env.answer_of_no_fault hfault, env.answer_of_no_fault hfault']
    show (_, (⟨world, _, s.cache⟩ : Situation ω)) = _
    rw [show s.hideAmounts.memory = hideAmounts s.memory from rfl, addTransfer_hideAmount]
    rfl

theorem AlikeButAmounts.addTransfer (hblind : env.BlindToAmounts) (h : AlikeButAmounts s t)
    {record record' : TransferRecord} (hrecord : hideAmount record = hideAmount record') :
    (env.answer (.store (.addTransfer record)) s).1 =
        (env.answer (.store (.addTransfer record')) t).1 ∧
      AlikeButAmounts (env.answer (.store (.addTransfer record)) s).2
        (env.answer (.store (.addTransfer record')) t).2 := by
  have hs := answer_addTransfer_hideAmount hblind record s
  rw [show s.hideAmounts = t.hideAmounts from h, hrecord,
    answer_addTransfer_hideAmount hblind record' t] at hs
  exact ⟨(congrArg Prod.fst hs).symm, (congrArg Prod.snd hs).symm⟩

/-- The record of a transfer takes nothing but the amount from the amount. -/
theorem hideAmount_transferRecord (seen : Observation) (told : Event)
    (argument sender receiver : String) (amount amount' operation : Int) :
    (Observer.transferRecord seen { told with argument } ⟨sender, receiver, amount'⟩
        operation).map hideAmount =
      (Observer.transferRecord seen told ⟨sender, receiver, amount⟩ operation).map hideAmount := by
  unfold Observer.transferRecord
  cases Timestamp.ofBlockTime seen.block.timestamp with
  | none => rfl
  | some time => cases Quantity.blockNumber.int64 seen.block.number <;> rfl

/-- Two events that tell of a transfer between the same parties lead to the same balances, whatever
amounts they tell of. -/
theorem followTransfer_blind (hblind : env.BlindToAmounts) (h : AlikeButAmounts s t)
    (caller : String) (seen : Observation) (told : Event) {argument : String}
    {transfer transfer' : Transfer} (htransfer : Transfer.ofArgument told.argument = .ok transfer)
    (htransfer' : Transfer.ofArgument argument = .ok transfer')
    (hsender : transfer'.sender = transfer.sender)
    (hreceiver : transfer'.receiver = transfer.receiver) :
    Program.Agree env.answer env.answer AlikeButAmounts (followTransfer caller seen told)
      (followTransfer caller seen { told with argument }) s t := by
  -- the parties, and whether tokens were made or destroyed, are known without the amount
  obtain ⟨sender, receiver, amount⟩ := transfer
  obtain ⟨sender', receiver', amount'⟩ := transfer'
  cases hsender
  cases hreceiver
  have hparties : ∀ {s t : Situation ω}, AlikeButAmounts s t →
      Program.Agree env.answer env.answer AlikeButAmounts
        (refreshParties caller told.contract ⟨sender, receiver, amount⟩)
        (refreshParties caller told.contract ⟨sender, receiver, amount⟩) s t := fun h =>
    (refreshParties_followsTransfer caller told.contract _).agree
      (fun _ _ _ hfollows h => h.answer hfollows) h
  unfold Observer.followTransfer
  rw [htransfer, htransfer']
  cases Quantity.operationIndex.int32 seen.index with
  | error e => exact Program.agree_fail h
  | ok operation =>
    obtain ⟨hrecorded, hasked⟩ := h.transfer env seen.transaction operation
    refine Program.agree_bind_of_map (p := store (.transfer seen.transaction operation))
      (q := store (.transfer seen.transaction operation)) (by simpa only [env.run_store])
      (by simpa only [env.run_store]) fun recorded recorded' s t hsome h => ?_
    cases recorded with
    | some record =>
      cases recorded' with
      | some record' => exact hparties h
      | none => cases hsome
    | none =>
      cases recorded' with
      | some record' => cases hsome
      | none =>
        have hrecord := hideAmount_transferRecord seen told argument sender receiver amount amount'
          operation
        refine Program.agree_bind_of_map (g := hideAmount)
          (p := Program.ofExcept (Observer.transferRecord seen told ⟨sender, receiver, amount⟩
            operation))
          (q := Program.ofExcept (Observer.transferRecord seen { told with argument }
            ⟨sender, receiver, amount'⟩ operation))
          (by simpa only [Program.run_ofExcept] using hrecord.symm)
          (by simpa only [Program.run_ofExcept]) fun record record' s t hrecord h => ?_
        obtain ⟨hreply, hdone⟩ := h.addTransfer hblind hrecord
        refine Program.Agree.bind (p := store (.addTransfer record))
          (q := store (.addTransfer record')) ⟨?_, ?_⟩ fun _ _ _ h => hparties h
        · simpa only [env.run_store]
        · simpa only [env.run_store]

/-! ## Any number of calls -/

/-- A call that refreshes balances: one balance of an address, or those that a transfer of tokens
has changed. -/
inductive BalanceCall : Procedure Unit → Prop where
  | refresh (owner : Refresher) (address asset : String) :
      BalanceCall (Observer.refreshBalance owner address asset)
  | follow (caller : String) (seen : Observation) (told : Event) :
      BalanceCall (followTransfer caller seen told)

/-- What can come of refreshers that start on some store. They are called one after the other, and a
call may fail or break off at any moment. Meanwhile the node's balances change as they like, and so
does all in the store but the balances, and scanners are started anew. -/
inductive Refreshed (env : Surroundings ω) (first : Memory) : Past ω → Refreshers ω → Prop where
  | start (world : ω) (caches : Nat → Cache) : Refreshed env first [] ⟨world, first, caches⟩
  | call {past past' : Past ω} {r : Refreshers ω} {s : Situation ω} {p : Procedure Unit} (k : Nat)
      (call : BalanceCall p) (before : Refreshed env first past r)
      (moment : (s, past') ∈ p.moments (Program.dated env.answer)
        (⟨r.world, r.memory, r.caches k⟩, past)) :
      Refreshed env first past' ⟨s.world, s.memory, Function.update r.caches k s.cache⟩
  | others {past : Past ω} {r : Refreshers ω} (world : ω) {memory : Memory}
      (balances : memory.balances = r.memory.balances)
      (holdings : memory.holdings = r.memory.holdings) (before : Refreshed env first past r) :
      Refreshed env first past ⟨world, memory, r.caches⟩
  | restart {past : Past ω} {r : Refreshers ω} (k : Nat) (before : Refreshed env first past r) :
      Refreshed env first past { r with caches := Function.update r.caches k Cache.empty }

theorem BalanceCall.staysCurrent {p : Procedure Unit} (hp : BalanceCall p)
    (h : Current env first past s.memory) : StaysCurrent env first p s past := by
  cases hp with
  | refresh owner address asset => exact h.refreshBalance owner address asset
  | follow caller seen told => exact h.followTransfer caller seen told

theorem Refreshed.current {r : Refreshers ω} (h : Refreshed env first past r)
    (hbalances : (first.balances.map (·.key)).Nodup)
    (hholdings : (first.holdings.map (·.key)).Nodup) : Current env first past r.memory := by
  induction h with
  | start world caches =>
    exact ⟨hbalances, hholdings,
      fun purse => .inl ⟨rfl, fun x hx => absurd hx List.not_mem_nil⟩⟩
  | @call past past' r s p k call _ moment ih =>
    have hstays := call.staysCurrent (s := ⟨r.world, r.memory, r.caches k⟩) ih
    exact (Program.ensures_iff.1 hstays).1 (s, past') moment
  | others world hbalances hholdings _ ih =>
    refine ⟨hbalances ▸ ih.balances, hholdings ▸ ih.holdings, fun purse => ?_⟩
    unfold UpToDate
    rw [purse.amount?_congr hbalances hholdings]
    exact ih.amounts purse
  | restart k _ ih => exact ih

/-- Start on a store with one row for each balance. Whatever is called and whatever happens between
the calls, there is one row for each purse, and its amount is what the last refresh of the purse
that was completed has found: what the node or the token said then, scaled by the precision that the
refresh went by. A refresh that fails changes no row, and one that is completed the amount of its
purse only. And two events that differ in the amount of a transfer only lead to the same
balances. -/
theorem balances_are_last_answers (env : Surroundings ω)
    (hbalances : (first.balances.map (·.key)).Nodup)
    (hholdings : (first.holdings.map (·.key)).Nodup) :
    (∀ past r, Refreshed env first past r → Current env first past r.memory) ∧
      (∀ purse p, RefreshOf purse p → ∀ s,
        Changes purse s (Program.run env.answer p s).1 (Program.run env.answer p s).2) ∧
      (env.BlindToAmounts → ∀ s t, AlikeButAmounts s t →
        ∀ caller seen told argument transfer transfer',
          Transfer.ofArgument told.argument = .ok transfer →
          Transfer.ofArgument argument = .ok transfer' →
          transfer'.sender = transfer.sender → transfer'.receiver = transfer.receiver →
          Program.Agree env.answer env.answer AlikeButAmounts (followTransfer caller seen told)
            (followTransfer caller seen { told with argument }) s t) :=
  ⟨fun _ _ h => h.current hbalances hholdings, fun _ _ h s => h.changes s,
    fun hblind _ _ h caller seen told _ _ _ htransfer htransfer' hsender hreceiver =>
      followTransfer_blind hblind h caller seen told htransfer htransfer' hsender hreceiver⟩

end

/-- Surroundings in which an address gets richer by and by, and the node is down for a while. -/
def growing : Surroundings Nat where
  node
    | .assets _ _, world => (.ok [⟨"1.3.0", "HX", 5⟩, ⟨"1.3.1", "BTC", 8⟩], world)
    | .balances _, world =>
      (if world = 2 then .error (.node "closed") else .ok [("1.3.1", 1000 * (world + 1))], world)
    | .invoke _ _ _ _, world => (if world = 2 then .error (.node "closed") else .ok "7", world)
    | .block _, world => (.ok none, world)
    | .receipts _, world => (.ok [], world)
  fault _ world := (none, world)
  cancelled _ := false

/-- What there is after a call in a world. -/
def callIn (world : Nat) (p : Procedure Unit) (x : Situation Nat × Past Nat) :
    Situation Nat × Past Nat :=
  (Program.run (Program.dated growing.answer) p (⟨world, x.1.memory, x.1.cache⟩, x.2)).2

/-- A call of the first refresher, from where it stands. -/
theorem refreshed_callIn {first : Memory} (world : Nat) {p : Procedure Unit} (hp : BalanceCall p)
    {x : Situation Nat × Past Nat} (h : ∃ r, Refreshed growing first x.2 r ∧
      r.memory = x.1.memory ∧ r.caches 0 = x.1.cache) :
    ∃ r, Refreshed growing first (callIn world p x).2 r ∧ r.memory = (callIn world p x).1.memory ∧
      r.caches 0 = (callIn world p x).1.cache := by
  obtain ⟨r, hr, hmemory, hcache⟩ := h
  have hready : Refreshed growing first x.2 ⟨world, r.memory, r.caches⟩ := .others world rfl rfl hr
  unfold callIn
  rw [← hmemory, ← hcache]
  rcases Program.run_eq_or_mem_moments (Program.dated growing.answer) p
    (⟨world, r.memory, r.caches 0⟩, x.2) with hsame | hmoment
  · rw [hsame]
    exact ⟨_, hready, rfl, rfl⟩
  · exact ⟨_, .call 0 hp hready hmoment, rfl, by simp only [Function.update_self]⟩

/-- What there is when a balance was refreshed, and those of a transfer's parties after it, and the
balance again, and then once more when the node was down. -/
def grown : Situation Nat × Past Nat :=
  let refresh := Observer.refreshBalance .transfers "HXa" "1.3.1"
  let follow := followTransfer "caller" reselling (resold.events.getLast (by decide))
  callIn 2 refresh (callIn 1 refresh (callIn 0 follow (callIn 0 refresh
    (⟨0, coined.memory, Cache.empty⟩, []))))

/-- What the event would tell of a larger amount. -/
def largerResale : String :=
  "\x7b\"from\":\"buyer\",\"to\":\"friend\",\"amount\":9\x7d"

theorem refreshed_grown : ∃ r, Refreshed growing coined.memory grown.2 r ∧
    r.memory = grown.1.memory ∧ r.caches 0 = grown.1.cache :=
  refreshed_callIn 2 (.refresh _ _ _) <| refreshed_callIn 1 (.refresh _ _ _) <|
    refreshed_callIn 0 (.follow _ _ _) <| refreshed_callIn 0 (.refresh _ _ _)
      ⟨⟨0, coined.memory, fun _ => Cache.empty⟩, .start 0 _, rfl, rfl⟩

theorem grown_balances_are_last_answers :
    ∃ past r, Refreshed growing coined.memory past r ∧
      r.memory.balances = [⟨"HXa", "1.3.1", "0.00002000"⟩] ∧
      r.memory.holdings = [⟨"coin", "buyer", "7"⟩, ⟨"coin", "friend", "7"⟩] ∧
      LastFound growing past (.native "HXa" "1.3.1") "0.00002000" ∧
      (∀ s, Changes (.native "HXa" "1.3.1") s
        (Program.run growing.answer (Observer.refreshBalance .transfers "HXa" "1.3.1") s).1
        (Program.run growing.answer (Observer.refreshBalance .transfers "HXa" "1.3.1") s).2) ∧
      Program.Agree growing.answer growing.answer AlikeButAmounts
        (followTransfer "caller" reselling (resold.events.getLast (by decide)))
        (followTransfer "caller" reselling { resold.events.getLast (by decide) with
          argument := largerResale })
        grown.1 grown.1 := by
  obtain ⟨r, hr, hmemory, -⟩ := refreshed_grown
  have hbalances : grown.1.memory.balances = [⟨"HXa", "1.3.1", "0.00002000"⟩] := by
    decide +kernel
  have hholdings : grown.1.memory.holdings =
      [⟨"coin", "buyer", "7"⟩, ⟨"coin", "friend", "7"⟩] := by
    decide +kernel
  have hargument : Transfer.ofArgument (resold.events.getLast (by decide)).argument =
      .ok ⟨"buyer", "friend", 3⟩ :=
    Entry.ok_of_toOption (by decide +kernel)
  have hargument' : Transfer.ofArgument largerResale = .ok ⟨"buyer", "friend", 9⟩ :=
    Entry.ok_of_toOption (by decide +kernel)
  obtain ⟨hcurrent, hchanges, hblind⟩ := balances_are_last_answers growing
    (show (coined.memory.balances.map (·.key)).Nodup by decide) (by decide)
  refine ⟨grown.2, r, hr, hmemory ▸ hbalances, hmemory ▸ hholdings, ?_,
    hchanges _ _ (.native .transfers "HXa" "1.3.1"),
    hblind (fun _ => rfl) grown.1 grown.1 rfl "caller" reselling _ _ _ _ hargument hargument' rfl
      rfl⟩
  have hamount : Purse.amount? r.memory (.native "HXa" "1.3.1") = some "0.00002000" := by
    rw [hmemory, Purse.amount?, Store.Memory.balance?, hbalances]
    decide
  rcases (hcurrent _ r hr).amounts (.native "HXa" "1.3.1") with ⟨hfirst, -⟩ | ⟨amount, hsome, hlast⟩
  · -- the store had no balance at first
    rw [hamount] at hfirst
    cases hfirst
  · rw [hamount] at hsome
    cases hsome
    exact hlast

end ChainIndex.Scan
