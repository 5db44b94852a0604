import ChainIndex.Proofs.AssetCaches
import ChainIndex.Proofs.KnownAssets
import ChainIndex.Proofs.OtherHoldings

/-!
# Queries that fail

A query for a balance fails on one node and is answered by another. An operation that is shown to the
standard observers then leaves the same balances of all others on both sides, with one exception: if
the query for the sender of a transfer fails, the receiver is not asked for either.

Assets are looked up on the way to a balance, and the node lists them for all that come later. So
balances of others are only the same if it makes no difference when that happens.
-/

namespace ChainIndex

/-- Whether a balance is only refreshed if the one of `a` can be had: what the receiver of a transfer
from `a` has in the asset that moves. -/
def Observation.awaits (seen : Observation) (a : String) (b : BalanceRecord) : Bool :=
  seen.typeName == "transfer_operation" && seen.payload.text? "from_addr" == some a &&
    (seen.payload.text? "to_addr" == some b.owner && seen.payload.movedAsset? == some b.asset)

/-- Whether a balance has nothing to do with what can be had of `a`. -/
def Observation.keepsBut (seen : Observation) (a : String) (b : BalanceRecord) : Bool :=
  b.owner != a && !seen.awaits a b

theorem Observation.owner_ne_of_keepsBut {seen : Observation} {a : String} {b : BalanceRecord}
    (h : seen.keepsBut a b) : b.owner ≠ a := by
  rw [keepsBut, Bool.and_eq_true, bne_iff_ne] at h
  exact h.1

namespace Scan

open Observer (refreshBalance listedAtOnce places)
open Store (Memory)

/-! ## What does not concern balances -/

/-- Whether a request leaves the balances of addresses alone, and what is known of assets. -/
def Request.leavesBalances : Request → Bool
  | .store (.addAsset _) | .store (.putBalance _) | .cache (.keepAsset _ _ _) => false
  | _ => true

theorem Request.leavesBalances_of_followsTokens {owners : String → Bool} {request : Request}
    (h : request.followsTokens owners) : request.leavesBalances := by
  cases request with
  | store request => cases request <;> first | rfl | cases h
  | cache request => cases request <;> first | rfl | cases h
  | node | cancelled => rfl

theorem Heeds.leavingBalances {owners : String → Bool} {α : Type} {p : Procedure α}
    (h : Heeds (·.followsTokens owners) p) : Heeds (·.leavesBalances) p :=
  h.widen fun _ => Request.leavesBalances_of_followsTokens

theorem recordAccount_leavesBalances (seen : Observation) :
    Heeds (·.leavesBalances) (Observer.recordAccount seen) := by
  unfold Observer.recordAccount
  split
  · exact .done _
  split
  · refine heeds_store rfl fun found => ?_
    cases found with
    | some found => exact .done _
    | none => exact store_heeds rfl
  · exact .done _

theorem Request.target?_of_leavesBalances {request : Request} (h : request.leavesBalances) :
    request.target? ≠ some .assets ∧ request.target? ≠ some .balances := by
  cases request with
  | store request =>
    cases request with
    | addAsset | putBalance => cases h
    | _ => exact ⟨nofun, nofun⟩
  | node | cache | cancelled => exact ⟨nofun, nofun⟩

theorem assetsOf_of_leavesBalances {request : Request} (h : request.leavesBalances)
    (answers : Answers) (s : Situation Unit) (owner : Refresher) :
    ((Surroundings.steady answers).answer request s).2.cache.assetsOf owner =
      s.cache.assetsOf owner := by
  cases request with
  | cache request => cases request <;> first | (cases owner <;> rfl) | cases h
  | store | node | cancelled => rfl

/-! ## Balances that stay the same -/

/-- From one situation to another, some balances have stayed the same and the same is known of
assets. -/
structure Spares (listing : Listing) (keep : BalanceRecord → Bool) (s s' : Situation Unit) :
    Prop where
  agrees : listing.Agrees s'
  known : ∀ owner id, knownRecord? listing s' owner id = knownRecord? listing s owner id
  balances : s'.memory.balances.filter keep = s.memory.balances.filter keep

/-- Two situations have some balances in common, and know the same of assets. -/
structure Shares (listing : Listing) (keep : BalanceRecord → Bool) (s t : Situation Unit) :
    Prop where
  agrees : listing.Agrees s
  agrees' : listing.Agrees t
  known : ∀ owner id, knownRecord? listing s owner id = knownRecord? listing t owner id
  balances : s.memory.balances.filter keep = t.memory.balances.filter keep

section

variable {listing : Listing} {keep : BalanceRecord → Bool} {s s' s'' t t' : Situation Unit}
  {answers answers' : Answers}

theorem Listing.Agrees.spares (h : listing.Agrees s) : Spares listing keep s s :=
  ⟨h, fun _ _ => rfl, rfl⟩

theorem Settled.spares (h : Settled listing s s') : Spares listing keep s s' :=
  ⟨h.agrees, h.known, congrArg (List.filter keep) h.balances⟩

theorem Spares.trans (h : Spares listing keep s s') (h' : Spares listing keep s' s'') :
    Spares listing keep s s'' :=
  ⟨h'.agrees, fun owner id => (h'.known owner id).trans (h.known owner id),
    h'.balances.trans h.balances⟩

theorem Shares.after (h : Shares listing keep s t) (hs : Spares listing keep s s')
    (ht : Spares listing keep t t') : Shares listing keep s' t' :=
  ⟨hs.agrees, ht.agrees, fun owner id =>
    (hs.known owner id).trans ((h.known owner id).trans (ht.known owner id).symm),
    hs.balances.trans (h.balances.trans ht.balances.symm)⟩

/-- Where the assets are the same, the same is known of them. -/
theorem Listing.Agrees.of_same (h : listing.Agrees s)
    (hassets : s'.memory.assets = s.memory.assets)
    (hcache : ∀ owner, s'.cache.assetsOf owner = s.cache.assetsOf owner) :
    listing.Agrees s' ∧
      ∀ owner id, knownRecord? listing s' owner id = knownRecord? listing s owner id := by
  have hasset : ∀ id, s'.memory.asset? id = s.memory.asset? id := fun id => by
    rw [Memory.asset?, Memory.asset?, hassets]
  refine ⟨⟨h.listed, fun id => ?_, fun owner => ?_⟩, fun owner id => ?_⟩
  · rw [hasset]
    exact h.stored id
  · rw [hcache]
    exact h.remembered owner
  · rw [knownRecord?, knownRecord?, hasset, hcache]

theorem spares_bind {α β : Type} {p : Procedure α} {f : α → Procedure β}
    (hp : Spares listing keep s (Program.run (Surroundings.steady answers).answer p s).2)
    (hf : ∀ v s', listing.Agrees s' →
      Spares listing keep s' (Program.run (Surroundings.steady answers).answer (f v) s').2) :
    Spares listing keep s (Program.run (Surroundings.steady answers).answer (p.bind f) s).2 := by
  rw [Program.run_bind]
  generalize Program.run (Surroundings.steady answers).answer p s = first at hp
  obtain ⟨r, s'⟩ := first
  cases r with
  | error e => exact hp
  | ok v => exact hp.trans (hf v s' hp.agrees)

/-- What does not concern balances spares all of them. -/
theorem spares_run {α : Type} {p : Procedure α} (hp : Heeds (·.leavesBalances) p)
    (h : listing.Agrees s) :
    Spares listing keep s (Program.run (Surroundings.steady answers).answer p s).2 := by
  refine hp.keeps (M := Spares listing keep s) (fun request s' hleaves hs' => ?_) h.spares
  obtain ⟨hassets, hbalances⟩ := Request.target?_of_leavesBalances hleaves
  have hsame : Store.Part.Same .balances s'.memory
      ((Surroundings.steady answers).answer request s').2.memory :=
    (Surroundings.steady answers).answer_same hbalances s'
  obtain ⟨hagrees, hknown⟩ := hs'.agrees.of_same
    ((Surroundings.steady answers).answer_same hassets s')
    (assetsOf_of_leavesBalances hleaves answers s')
  exact hs'.trans ⟨hagrees, hknown, congrArg (List.filter keep) hsame⟩

/-! ## One refresh -/

/-- The amount that a refresh finds, if this record of the asset is known. -/
def amountFound (answers : Answers) (known : Option AssetRecord) (address asset : String) :
    Except Error String := do
  let balances ← answers (.balances address)
  match ← lookedUp (answers (.assets 0 listedAtOnce)) known with
  | none => .error (.malformed (.unknownAsset asset))
  | some record =>
    .ok (Amount.scale ((balances.lookup asset).getD 0) (places record.precision))

/-- A refresh settles what is known, and sets the balance to the amount that it finds. -/
theorem refreshBalance_settles (hlisting : answers (.assets 0 listedAtOnce) = listing)
    (h : listing.Agrees s) (owner : Refresher) (address asset : String) :
    ∃ s', Settled listing s s' ∧
      Program.run (Surroundings.steady answers).answer (refreshBalance owner address asset) s =
        match amountFound answers (knownRecord? listing s owner asset) address asset with
        | .ok amount =>
          (.ok (), { s' with memory := s'.memory.putBalance ⟨address, asset, amount⟩ })
        | .error e => (.error e, s') := by
  subst hlisting
  unfold refreshBalance amountFound
  rw [Program.bind_eq, run_node_bind rfl]
  cases answers (.balances address) with
  | error e => exact ⟨s, h.settled, rfl⟩
  | ok balances =>
    obtain ⟨s', hrun, hsettled⟩ := knownAsset_settles rfl h owner asset
    refine ⟨s', hsettled, ?_⟩
    show Program.run _ ((Observer.knownAsset owner asset).bind _) s = _
    rw [Program.run_bind, hrun]
    cases lookedUp (answers (.assets 0 listedAtOnce))
        (knownRecord? (answers (.assets 0 listedAtOnce)) s owner asset) with
    | error e => rfl
    | ok found => cases found <;> rfl

/-! ## A refresh on both sides -/

/-- Which balances are kept is told by their keys. -/
def ByKey (keep : BalanceRecord → Bool) : Prop :=
  ∀ (b : BalanceRecord) amount, keep { b with amount } = keep b

theorem keepsBut_byKey (seen : Observation) (a : String) : ByKey (seen.keepsBut a) :=
  fun _ _ => rfl

theorem ByKey.of_match (hkeep : ByKey keep) {old b : BalanceRecord}
    (h : (old.owner == b.owner && old.asset == b.asset) = true) : keep old = keep b := by
  simp only [Bool.and_eq_true, beq_iff_eq] at h
  rw [← hkeep old b.amount, h.1, h.2]

theorem Listing.Agrees.putBalance (h : listing.Agrees s) (b : BalanceRecord) :
    listing.Agrees { s with memory := s.memory.putBalance b } ∧
      ∀ owner id, knownRecord? listing { s with memory := s.memory.putBalance b } owner id =
        knownRecord? listing s owner id :=
  h.of_same rfl fun _ => rfl

/-- A balance that is not kept may be set. -/
theorem Listing.Agrees.spares_putBalance (h : listing.Agrees s) (hkeep : ByKey keep)
    {b : BalanceRecord} (hb : keep b = false) :
    Spares listing keep s { s with memory := s.memory.putBalance b } := by
  obtain ⟨hagrees, hknown⟩ := h.putBalance b
  refine ⟨hagrees, hknown,
    Memory.filter_upsert_of_neg (fun old hold => ?_) (fun old hold => ?_) hb _⟩
  · rw [hkeep.of_match hold, hb]
  · rw [hkeep, hkeep.of_match hold, hb]

/-- The same balance may be set on both sides. -/
theorem Shares.putBalance (h : Shares listing keep s t) (hkeep : ByKey keep) (b : BalanceRecord) :
    Shares listing keep { s with memory := s.memory.putBalance b }
      { t with memory := t.memory.putBalance b } := by
  obtain ⟨hagrees, hknown⟩ := h.agrees.putBalance b
  obtain ⟨hagrees', hknown'⟩ := h.agrees'.putBalance b
  refine ⟨hagrees, hagrees', fun owner id =>
    (hknown owner id).trans ((h.known owner id).trans (hknown' owner id).symm), ?_⟩
  refine Memory.filter_upsert_congr (fun old hold => hkeep.of_match hold) (fun old hold => ?_)
    h.balances
  rw [hkeep, hkeep.of_match hold]

/-- A refresh of a balance that is not kept spares all others, whatever comes of it. -/
theorem refreshBalance_spares (hlisting : answers (.assets 0 listedAtOnce) = listing)
    (hkeep : ByKey keep) (owner : Refresher) {address asset : String}
    (hspared : ∀ amount, keep ⟨address, asset, amount⟩ = false) (h : listing.Agrees s) :
    Spares listing keep s (Program.run (Surroundings.steady answers).answer
      (refreshBalance owner address asset) s).2 := by
  obtain ⟨s', hsettled, hrun⟩ := refreshBalance_settles hlisting h owner address asset
  rw [hrun]
  cases amountFound answers (knownRecord? listing s owner asset) address asset with
  | error e => exact hsettled.spares
  | ok amount =>
    exact hsettled.spares.trans (hsettled.agrees.spares_putBalance hkeep (hspared amount))

variable {a : String}

/-- Two nodes that differ about one owner lead to the same refresh of another one. -/
theorem refreshBalance_agree (hnodes : answers.AgreeBut a answers')
    (hlisting : answers (.assets 0 listedAtOnce) = listing) (hkeep : ByKey keep)
    (owner : Refresher) {address : String} (haddress : address ≠ a) (asset : String)
    (h : Shares listing keep s t) :
    AgreeOn answers answers' (Shares listing keep) (refreshBalance owner address asset) s t := by
  have hlisting' : answers' (.assets 0 listedAtOnce) = listing :=
    (hnodes (.assets 0 listedAtOnce) rfl).symm.trans hlisting
  obtain ⟨s', hs, hrun⟩ := refreshBalance_settles hlisting h.agrees owner address asset
  obtain ⟨t', ht, hrun'⟩ := refreshBalance_settles hlisting' h.agrees' owner address asset
  have hafter : Shares listing keep s' t' := h.after hs.spares ht.spares
  have hfound : amountFound answers' (knownRecord? listing t owner asset) address asset =
      amountFound answers (knownRecord? listing s owner asset) address asset := by
    rw [amountFound, amountFound, hlisting, hlisting', h.known owner asset,
      hnodes (.balances address) (beq_eq_false_iff_ne.2 haddress)]
  unfold AgreeOn Program.Agree
  rw [hrun, hrun', hfound]
  cases amountFound answers (knownRecord? listing s owner asset) address asset with
  | error e => exact ⟨rfl, hafter⟩
  | ok amount => exact ⟨rfl, hafter.putBalance hkeep _⟩

/-! ## All observers -/

theorem of_transferPart {part : TransferPart} {found : Option String} {text : String}
    (h : Observer.transferPart part found = .ok text) : found = some text := by
  cases found with
  | none => cases h
  | some found => exact congrArg some (Except.ok.inj h)

/-- A refresh of one balance, of whomever: it is the same on both sides, or not kept. -/
theorem refreshBalance_meet (hnodes : answers.AgreeBut a answers')
    (hlisting : answers (.assets 0 listedAtOnce) = listing) (hkeep : ByKey keep)
    (hspared : ∀ b, keep b → b.owner ≠ a) (owner : Refresher) (address asset : String)
    (h : Shares listing keep s t) :
    MeetOn answers answers' (Shares listing keep) (refreshBalance owner address asset) s t := by
  by_cases haddress : address = a
  · have hnone : ∀ amount, keep ⟨address, asset, amount⟩ = false := fun amount =>
      Bool.eq_false_iff.2 fun hb => hspared _ hb haddress
    have hlisting' := (hnodes (.assets 0 listedAtOnce) rfl).symm.trans hlisting
    exact h.after (refreshBalance_spares hlisting hkeep owner hnone h.agrees)
      (refreshBalance_spares hlisting' hkeep owner hnone h.agrees')
  · exact (refreshBalance_agree hnodes hlisting hkeep owner haddress asset h).meet

/-- What does not concern balances leaves the same ones on both sides. -/
theorem Shares.meet (h : Shares listing keep s t) {α : Type} {p : Procedure α}
    (hp : Heeds (·.leavesBalances) p) :
    MeetOn answers answers' (Shares listing keep) p s t :=
  h.after (spares_run hp h.agrees) (spares_run hp h.agrees')

/-- The observer of transfers refreshes the same balances on both sides, but for what depends on the
sender. -/
theorem refreshTransfer_meet (hnodes : answers.AgreeBut a answers')
    (hlisting : answers (.assets 0 listedAtOnce) = listing) (seen : Observation)
    (h : Shares listing (seen.keepsBut a) s t) :
    MeetOn answers answers' (Shares listing (seen.keepsBut a)) (Observer.refreshTransfer seen)
      s t := by
  have hlisting' := (hnodes (.assets 0 listedAtOnce) rfl).symm.trans hlisting
  unfold Observer.refreshTransfer
  split
  · exact h
  rename_i htype
  refine Program.meet_decode h fun sender hsender => ?_
  refine Program.meet_decode h fun receiver hreceiver => ?_
  refine Program.meet_decode h fun asset hasset => ?_
  by_cases ha : sender = a
  · subst ha
    -- neither the sender's balance is kept nor the one that is refreshed after it
    have hspared : ∀ address, address = sender ∨ address = receiver → ∀ amount,
        seen.keepsBut sender ⟨address, asset, amount⟩ = false := by
      rintro address (rfl | rfl) amount
      · simp [Observation.keepsBut]
      · simp only [ne_eq, not_not] at htype
        simp [Observation.keepsBut, Observation.awaits, htype, of_transferPart hsender,
          of_transferPart hreceiver, of_transferPart hasset]
    have hside : ∀ {answers : Answers}, answers (.assets 0 listedAtOnce) = listing →
        ∀ {s}, listing.Agrees s → Spares listing (seen.keepsBut sender) s
          (Program.run (Surroundings.steady answers).answer
            ((refreshBalance .transfers sender asset).bind fun _ =>
              if receiver = sender then .done ()
              else refreshBalance .transfers receiver asset) s).2 := by
      intro answers hlisting s hs
      refine spares_bind (refreshBalance_spares hlisting (keepsBut_byKey seen _) .transfers
        (hspared sender (.inl rfl)) hs) fun _ s' hs' => ?_
      split
      · exact hs'.spares
      · exact refreshBalance_spares hlisting (keepsBut_byKey seen _) .transfers
          (hspared receiver (.inr rfl)) hs'
    exact h.after (hside hlisting h.agrees) (hside hlisting' h.agrees')
  · refine (refreshBalance_agree hnodes hlisting (keepsBut_byKey seen _) .transfers ha asset
      h).bind_meet fun _ s t h => ?_
    split
    · exact h
    · exact refreshBalance_meet hnodes hlisting (keepsBut_byKey seen _)
        (fun _ => seen.owner_ne_of_keepsBut) .transfers receiver asset h

/-- Where the sender's balance cannot be had, nothing is asked about the receiver. -/
theorem refreshTransfer_of_failed {seen : Observation} {b : BalanceRecord} {e : Error}
    (hawaits : seen.awaits a b) (hfailed : answers (.balances a) = .error e) (s : Situation Unit) :
    Program.run (Surroundings.steady answers).answer (Observer.refreshTransfer seen) s =
      (.error e, s) := by
  simp only [Observation.awaits, Bool.and_eq_true, beq_iff_eq] at hawaits
  obtain ⟨⟨htype, hsender⟩, hreceiver, hasset⟩ := hawaits
  unfold Observer.refreshTransfer
  rw [if_neg (not_not_intro htype), hsender, hreceiver, hasset]
  show Program.run _ ((refreshBalance .transfers a b.asset).bind _) s = _
  rw [Program.run_bind, refreshBalance, Program.bind_eq, run_node_bind hfailed]
  rfl

/-- Where both balances can be had, the receiver's is set to the amount that is found. -/
theorem refreshTransfer_of_found {seen : Observation} {b : BalanceRecord} {amount amount' : String}
    (hlisting : answers (.assets 0 listedAtOnce) = listing) (h : listing.Agrees s)
    (hawaits : seen.awaits a b) (hother : b.owner ≠ a)
    (hfound : amountFound answers (knownRecord? listing s .transfers b.asset) a b.asset =
      .ok amount)
    (hfound' : amountFound answers (knownRecord? listing s .transfers b.asset) b.owner b.asset =
      .ok amount') :
    ∃ s', Program.run (Surroundings.steady answers).answer (Observer.refreshTransfer seen) s =
        (.ok (), s') ∧
      s'.memory.balance? b.owner b.asset = some { b with amount := amount' } := by
  simp only [Observation.awaits, Bool.and_eq_true, beq_iff_eq] at hawaits
  obtain ⟨⟨htype, hsender⟩, hreceiver, hasset⟩ := hawaits
  obtain ⟨s₁, hsettled, hrun⟩ := refreshBalance_settles hlisting h .transfers a b.asset
  rw [hfound] at hrun
  -- what was known is known once the sender's balance is set
  obtain ⟨hagrees, hknown⟩ := hsettled.agrees.putBalance ⟨a, b.asset, amount⟩
  obtain ⟨s₂, -, hrun'⟩ := refreshBalance_settles hlisting hagrees .transfers b.owner b.asset
  rw [hknown, hsettled.known, hfound'] at hrun'
  refine ⟨{ s₂ with memory := s₂.memory.putBalance ⟨b.owner, b.asset, amount'⟩ }, ?_, ?_⟩
  · unfold Observer.refreshTransfer
    rw [if_neg (not_not_intro htype), hsender, hreceiver, hasset]
    show Program.run _ ((refreshBalance .transfers a b.asset).bind fun _ =>
      if b.owner = a then .done () else refreshBalance .transfers b.owner b.asset) s = _
    rw [Program.run_bind, hrun]
    simp only [if_neg hother]
    exact hrun'
  · rw [Memory.balance?_putBalance]
    exact if_pos rfl

/-- Whether a contract is known to be a token is found out in any case. -/
theorem isKnown_ok (answers : Answers) (contract : String) (s : Situation Unit) :
    ∃ known, (Program.run (Surroundings.steady answers).answer (Observer.isKnown contract) s).1 =
      .ok known := by
  unfold Observer.isKnown
  show ∃ known, (Program.run _ (if s.cache.tokens.contains contract then pure true else
    (store (.token contract)).bind _) s).1 = .ok known
  split
  · exact ⟨true, rfl⟩
  · rw [run_store_bind (v := s.memory.token? contract) rfl]
    split
    · exact ⟨true, rfl⟩
    · exact ⟨false, rfl⟩

/-- Events are gone through to the last, whatever comes of any of them. -/
theorem followEvents_ok (henv : (Surroundings.steady answers).Unhindered) (caller : String)
    (seen : Observation) (events : List Event) (s : Situation Unit) :
    (Program.run (Surroundings.steady answers).answer (Observer.followEvents caller seen events)
      s).1 = .ok () := by
  induction events generalizing s with
  | nil => rfl
  | cons told rest ih =>
    unfold Observer.followEvents
    obtain ⟨known, hknown⟩ := isKnown_ok answers told.contract s
    rw [Program.bind_eq, Program.run_bind]
    generalize Program.run (Surroundings.steady answers).answer
      (Observer.isKnown told.contract) s = asked at hknown
    obtain ⟨r, s'⟩ := asked
    cases hknown
    cases known with
    | true =>
      show (Program.run _ ((Observer.passOver (Observer.followEvent caller seen told)).bind _)
        s').1 = _
      rw [Program.run_bind, (followEvent_tolerable henv caller seen told).run_passOver]
      exact ih _
    | false => exact ih s'

section

variable (hnodes : answers.AgreeBut a answers')
  (hlisting : answers (.assets 0 listedAtOnce) = listing)
  (henv : (Surroundings.steady answers).Unhindered)
  (henv' : (Surroundings.steady answers').Unhindered)
include hnodes hlisting henv henv'

theorem refreshDeposits_meet (hkeep : ByKey keep) (hspared : ∀ b, keep b → b.owner ≠ a)
    (holdings : List (String × String)) (h : Shares listing keep s t) :
    MeetOn answers answers' (Shares listing keep) (Observer.refreshDeposits holdings) s t := by
  induction holdings generalizing s t with
  | nil => exact h
  | cons holding rest ih =>
    exact (agree_passOver (refreshBalance_tolerable henv .deposits holding.1 holding.2)
      (refreshBalance_tolerable henv' .deposits holding.1 holding.2)
      (refreshBalance_meet hnodes hlisting hkeep hspared .deposits holding.1 holding.2
        h)).bind_meet fun _ _ _ h => ih h

/-- However the refreshes of one owner fare on either side, the standard observers leave the same
balances of all others, but for what depends on the sender of a transfer. -/
theorem standard_agree_on_balances (caller : String) (seen : Observation)
    (h : Shares listing (seen.keepsBut a) s t) :
    AgreeOn answers answers' (Shares listing (seen.keepsBut a))
      (Observer.applyAll (Observer.standard caller) seen) s t := by
  have hregistration : Heeds (·.followsTokens fun _ => true)
      (Observer.recordRegistration caller seen) := recordRegistration_followsTokens caller seen
  refine agree_applyAll (standard_tolerable henv caller seen)
    (standard_tolerable henv' caller seen) ?_ h
  unfold Observer.standard
  simp only [List.forall_mem_cons]
  refine ⟨fun s t h => h.meet (recordAccount_leavesBalances seen),
    fun s t h => h.meet hregistration.leavingBalances,
    fun s t h => refreshTransfer_meet hnodes hlisting seen h, fun s t h => ?_, fun s t h => ?_,
    nofun⟩
  · show MeetOn _ _ _ (Observer.refreshNamed seen) s t
    unfold Observer.refreshNamed
    split
    · exact refreshBalance_meet hnodes hlisting (keepsBut_byKey seen a)
        (fun _ => seen.owner_ne_of_keepsBut) .amounts _ _ h
    · exact h
  · show MeetOn _ _ _ (Observer.followReceipt caller seen) s t
    unfold Observer.followReceipt
    split
    · exact h
    · rename_i receipt _
      -- events are gone through to the last on both sides, and concern tokens only
      have hevents : AgreeOn answers answers' (Shares listing (seen.keepsBut a))
          (Observer.followEvents caller seen receipt.events) s t :=
        ⟨(followEvents_ok henv caller seen _ s).trans (followEvents_ok henv' caller seen _ t).symm,
          h.meet (followEvents_followsTokens caller seen _).leavingBalances⟩
      exact hevents.bind_meet fun _ _ _ h => refreshDeposits_meet hnodes hlisting henv henv'
        (keepsBut_byKey seen a) (fun _ => seen.owner_ne_of_keepsBut) _ h

end

/-- Two nodes give the same answers except about the balances of one owner, and neither fails like a
store. Then an operation that is shown to the standard observers is shown to all of them on both
sides, and leaves the same token balances of all other owners. It also leaves the same balances of
all other addresses, if the list of assets agrees with what is known of them, with one exception: the
balance of the receiver of a transfer in the asset that moves, if the owner is its sender. That one
is refreshed where both can be had, but where the sender's cannot, the observer of transfers fails
before it asks for the receiver's. -/
theorem failed_query_costs_own_rows (hnodes : answers.AgreeBut a answers')
    (hanswers : ∀ request e, answers request = .error e → e.isStoreFailure = false)
    (hanswers' : ∀ request e, answers' request = .error e → e.isStoreFailure = false)
    (caller : String) (seen : Observation) (s : Situation Unit) :
    let shown (answers : Answers) := Program.run (Surroundings.steady answers).answer
      (Observer.applyAll (Observer.standard caller) seen) s
    ((shown answers).1 = .ok () ∧ (shown answers').1 = .ok ()) ∧
      (shown answers).2.memory.holdings.filter (·.owner != a) =
        (shown answers').2.memory.holdings.filter (·.owner != a) ∧
      (Listing.Agrees (answers (.assets 0 listedAtOnce)) s →
        (shown answers).2.memory.balances.filter (seen.keepsBut a) =
          (shown answers').2.memory.balances.filter (seen.keepsBut a)) ∧
      ∀ b, seen.awaits a b →
        let listing : Listing := answers (.assets 0 listedAtOnce)
        let found := amountFound answers (knownRecord? listing s .transfers b.asset)
        let refreshed := Program.run (Surroundings.steady answers).answer
          (Observer.refreshTransfer seen) s
        (∀ e, answers (.balances a) = .error e → refreshed = (.error e, s)) ∧
          (listing.Agrees s → b.owner ≠ a → ∀ amount amount', found a b.asset = .ok amount →
            found b.owner b.asset = .ok amount' → ∃ s', refreshed = (.ok (), s') ∧
              s'.memory.balance? b.owner b.asset = some { b with amount := amount' }) := by
  intro shown
  have henv : (Surroundings.steady answers).Unhindered :=
    ⟨fun _ _ => rfl, fun request _ e h => hanswers request e h⟩
  have henv' : (Surroundings.steady answers').Unhindered :=
    ⟨fun _ _ => rfl, fun request _ e h => hanswers' request e h⟩
  have htokens :=
    standard_agree_on_tokens hnodes henv henv' (s := s) ⟨rfl, rfl, rfl, rfl⟩ caller seen
  refine ⟨⟨?_, ?_⟩, htokens.2.holdings, fun hagrees => ?_, fun b hawaits => ⟨fun e hfailed => ?_,
    fun hagrees hother amount amount' hfound hfound' => ?_⟩⟩
  · exact applyAll_ok (standard_tolerable henv caller seen) s
  · exact applyAll_ok (standard_tolerable henv' caller seen) s
  · exact (standard_agree_on_balances hnodes rfl henv henv' caller seen
      ⟨hagrees, hagrees, fun _ _ => rfl, rfl⟩).2.balances
  · exact refreshTransfer_of_failed hawaits hfailed s
  · exact refreshTransfer_of_found rfl hagrees hawaits hother hfound hfound'

end

/-- A node that lists two assets and tells balances in both, but those of one address only if it is
open. -/
def quoting (isOpen : Bool) : Answers
  | .block _ => .ok none
  | .receipts _ => .ok []
  | .invoke _ _ _ _ => .error (.node "closed")
  | .assets _ _ => .ok [⟨"1.3.0", "HX", 5⟩, ⟨"1.3.1", "BTC", 8⟩]
  | .balances address =>
    if address = "HXa" ∧ isOpen = false then .error (.node "closed")
    else .ok [("1.3.0", 700), ("1.3.1", 1000)]

theorem quoting_agreeBut : (quoting true).AgreeBut "HXa" (quoting false) := by
  intro request hother
  cases request with
  | balances address =>
    have haddress : address ≠ "HXa" := beq_eq_false_iff_ne.1 hother
    simp [quoting, haddress]
  | block | receipts | invoke | assets => rfl

theorem quoting_error (isOpen : Bool) :
    ∀ request e, quoting isOpen request = .error e → e.isStoreFailure = false := by
  intro request e herror
  cases request with
  | balances address =>
    have herror : (if address = "HXa" ∧ isOpen = false then .error (.node "closed")
      else .ok [("1.3.0", 700), ("1.3.1", 1000)] : Except Error Balances) = .error e := herror
    split at herror <;> cases herror
    rfl
  | invoke =>
    cases herror
    rfl
  | block | receipts | assets => cases herror

/-- A transfer from one address to another. -/
def moving (sender receiver : String) : Observation where
  block := { number := 1, timestamp := "2019-03-04T05:06:07" }
  transaction := "move"
  index := 0
  typeCode := 0
  typeName := "transfer_operation"
  payload := ((Payload.empty.put "from_addr" (.str sender)).put "to_addr" (.str receiver)).put
    "amount" (.obj [("amount", .int 5), ("asset_id", .str "1.3.0")])
  receipt := none

/-- The balances in a store after an operation. -/
def balancesAfter (isOpen : Bool) (seen : Observation) (m : Memory) : List BalanceRecord :=
  (Program.run (Surroundings.steady (quoting isOpen)).answer
    (Observer.applyAll (Observer.standard "caller") seen)
    ⟨(), m, Cache.empty⟩).2.memory.balances

theorem quoting_agrees : Listing.Agrees (quoting true (.assets 0 listedAtOnce))
    ⟨(), Memory.empty, Cache.empty⟩ := by
  refine ⟨fun assets hassets asset hasset => ?_, nofun, fun owner => ?_⟩
  · cases hassets
    simp only [List.mem_cons, List.not_mem_nil, or_false] at hasset
    rcases hasset with rfl | rfl <;> exact ⟨_, rfl, by decide⟩
  · cases owner <;> exact nofun

/-- Where one party's balance cannot be had, the other party's is the same if it sends. If it
receives, it is refreshed only where the sender's balance can be had. -/
theorem failed_query_costs_receiver_only :
    balancesAfter false (moving "HXb" "HXa") Memory.empty = [⟨"HXb", "1.3.0", "0.00700"⟩] ∧
      (balancesAfter true (moving "HXb" "HXa") Memory.empty).filter
          ((moving "HXb" "HXa").keepsBut "HXa") =
        (balancesAfter false (moving "HXb" "HXa") Memory.empty).filter
          ((moving "HXb" "HXa").keepsBut "HXa") ∧
      let refreshed (isOpen : Bool) := Program.run (Surroundings.steady (quoting isOpen)).answer
        (Observer.refreshTransfer (moving "HXa" "HXb")) ⟨(), Memory.empty, Cache.empty⟩
      refreshed false = (.error (.node "closed"), ⟨(), Memory.empty, Cache.empty⟩) ∧
        ∃ s', refreshed true = (.ok (), s') ∧
          s'.memory.balance? "HXb" "1.3.0" = some ⟨"HXb", "1.3.0", "0.00700"⟩ := by
  have hawaits : (moving "HXa" "HXb").awaits "HXa" ⟨"HXb", "1.3.0", ""⟩ := by decide +kernel
  have hreversed : (quoting false).AgreeBut "HXa" (quoting true) := fun request hother =>
    (quoting_agreeBut request hother).symm
  obtain ⟨-, -, hbalances, -⟩ := failed_query_costs_own_rows quoting_agreeBut (quoting_error true)
    (quoting_error false) "caller" (moving "HXb" "HXa") ⟨(), Memory.empty, Cache.empty⟩
  obtain ⟨-, -, -, hmoved⟩ := failed_query_costs_own_rows quoting_agreeBut (quoting_error true)
    (quoting_error false) "caller" (moving "HXa" "HXb") ⟨(), Memory.empty, Cache.empty⟩
  obtain ⟨-, -, -, hfailed⟩ := failed_query_costs_own_rows hreversed (quoting_error false)
    (quoting_error true) "caller" (moving "HXa" "HXb") ⟨(), Memory.empty, Cache.empty⟩
  exact ⟨by decide +kernel, hbalances quoting_agrees, (hfailed _ hawaits).1 _ rfl,
    (hmoved _ hawaits).2 quoting_agrees (by decide) "0.00700" "0.00700"
      (Entry.ok_of_toOption (by decide +kernel)) (Entry.ok_of_toOption (by decide +kernel))⟩

/-- Contract code that makes deposits to two addresses, in two assets. -/
def depositing : Observation where
  block := { number := 1, timestamp := "2019-03-04T05:06:07" }
  transaction := "deposit"
  index := 0
  typeCode := 78
  typeName := "contract_invoke_operation"
  payload := .empty
  receipt := some {
    succeeded := true
    addressDeposits := [
      .arr [.arr [.str "HXa", .str "1.3.0"], .int 3],
      .arr [.arr [.str "HXb", .str "1.3.1"], .int 3]] }

/-- The receiver of a transfer is not refreshed if the sender's balance cannot be had. And where an
asset is stored otherwise than it is listed, a deposit is scaled as listed if the list was asked for
on the way to another one, and as stored if the query for that one has failed. -/
theorem failed_query_costs_rows_of_others :
    (quoting true).AgreeBut "HXa" (quoting false) ∧
      quoting false (.balances "HXa") = .error (.node "closed") ∧
      (Error.node "closed").isStoreFailure = false ∧
      ((balancesAfter true (moving "HXa" "HXb") Memory.empty).filter (·.owner != "HXa") =
          [⟨"HXb", "1.3.0", "0.00700"⟩] ∧
        (balancesAfter false (moving "HXa" "HXb") Memory.empty).filter (·.owner != "HXa") = []) ∧
      let m : Memory := { Memory.empty with assets := [otherwise] }
      (balancesAfter true depositing m).filter (·.owner != "HXa") =
          [⟨"HXb", "1.3.1", "0.00001000"⟩] ∧
        (balancesAfter false depositing m).filter (·.owner != "HXa") =
          [⟨"HXb", "1.3.1", "10.00"⟩] :=
  ⟨quoting_agreeBut, rfl, rfl, ⟨by decide +kernel, by decide +kernel⟩, by decide +kernel,
    by decide +kernel⟩

end Scan

end ChainIndex
