import ChainIndex.Proofs.LastBalances
import ChainIndex.Proofs.Tolerance

/-!
# Token balances of others

Two nodes give the same answers except about the balances of one owner. Whatever becomes of that
owner's refreshes on either side, what is known of tokens stays the same on both, and so do the
token balances of all others.
-/

namespace ChainIndex

/-! ## Rows that are kept -/

namespace Store.Memory

section

variable {α : Type} {keep p : α → Bool} {f : α → α} {a : α}

/-- A change that keeps the same rows is made among the kept rows as it is made among all. -/
theorem filter_updateFirst (hkept : ∀ b, p b → keep b) (hf : ∀ b, p b → keep (f b)) (l : List α) :
    (updateFirst p f l).filter keep = updateFirst p f (l.filter keep) := by
  induction l with
  | nil => rfl
  | cons b rest ih =>
    cases hb : p b with
    | true => simp [updateFirst, hb, hkept b hb, hf b hb]
    | false =>
      cases hkeep : keep b with
      | true => simp [updateFirst, hb, hkeep, ih]
      | false => simp [updateFirst, hb, hkeep, ih]

/-- A change among rows that are not kept makes no difference to those that are. -/
theorem filter_updateFirst_of_neg (hkept : ∀ b, p b → keep b = false)
    (hf : ∀ b, p b → keep (f b) = false) (l : List α) :
    (updateFirst p f l).filter keep = l.filter keep := by
  induction l with
  | nil => rfl
  | cons b rest ih =>
    cases hb : p b with
    | true => simp [updateFirst, hb, hkept b hb, hf b hb]
    | false => simp [updateFirst, hb, List.filter_cons, ih]

/-- A row that is kept is put among the kept rows as it is put among all. -/
theorem filter_upsert_of_pos (hkept : ∀ b, p b → keep b) (hf : ∀ b, p b → keep (f b))
    (ha : keep a) (l : List α) :
    (upsert p f a l).filter keep = upsert p f a (l.filter keep) := by
  have hany : (l.filter keep).any p = l.any p := by
    rw [List.any_filter]
    refine congrArg l.any (funext fun b => ?_)
    cases hb : p b with
    | true => rw [hkept b hb, Bool.and_true]
    | false => rw [Bool.and_false]
  unfold upsert
  rw [hany]
  split
  · exact filter_updateFirst hkept hf l
  · rw [List.filter_append, List.filter_cons_of_pos ha, List.filter_nil]

/-- A row that is not kept makes no difference where it is put. -/
theorem filter_upsert_of_neg (hkept : ∀ b, p b → keep b = false)
    (hf : ∀ b, p b → keep (f b) = false) (ha : keep a = false) (l : List α) :
    (upsert p f a l).filter keep = l.filter keep := by
  unfold upsert
  split
  · exact filter_updateFirst_of_neg hkept hf l
  · rw [List.filter_append, List.filter_cons_of_neg (ne_true_of_eq_false ha), List.filter_nil,
      List.append_nil]

/-- Rows that are the same are so where a row is put, whether that is kept or not. -/
theorem filter_upsert_congr {l l' : List α} (hkept : ∀ b, p b → keep b = keep a)
    (hf : ∀ b, p b → keep (f b) = keep a) (h : l.filter keep = l'.filter keep) :
    (upsert p f a l).filter keep = (upsert p f a l').filter keep := by
  cases ha : keep a with
  | true =>
    simp only [ha] at hkept hf
    rw [filter_upsert_of_pos hkept hf ha, filter_upsert_of_pos hkept hf ha, h]
  | false =>
    simp only [ha] at hkept hf
    rw [filter_upsert_of_neg hkept hf ha, filter_upsert_of_neg hkept hf ha, h]

end

end Store.Memory

namespace Scan

open Observer (refreshOwners refreshSupply followTransfer)
open Store (Memory)

/-! ## Requests about tokens -/

/-- Whether a node is asked about the balances of an owner. -/
def asksBalance (owner : String) : Node.Request → Bool
  | .balances address => address == owner
  | .invoke _ _ method argument => method == "balanceOf" && argument == owner
  | _ => false

/-- Two nodes give the same answers except about the balances of an owner. -/
def Answers.AgreeBut (owner : String) (answers answers' : Answers) : Prop :=
  ∀ request, asksBalance owner request = false → answers request = answers' request

/-- One procedure comes to the same on two nodes, in situations that are related. -/
abbrev AgreeOn {α : Type} (answers answers' : Answers)
    (R : Situation Unit → Situation Unit → Prop) (p : Procedure α) (s t : Situation Unit) : Prop :=
  Program.Agree (Surroundings.steady answers).answer (Surroundings.steady answers').answer R p p
    s t

/-- One procedure ends on two nodes in situations that are related. -/
abbrev MeetOn {α : Type} (answers answers' : Answers)
    (R : Situation Unit → Situation Unit → Prop) (p : Procedure α) (s t : Situation Unit) : Prop :=
  Program.Meet (Surroundings.steady answers).answer (Surroundings.steady answers').answer R p p
    s t

/-- Whether a token is asked about itself or about the balance of one of these owners. -/
def Request.asksToken (owners : String → Bool) : Request → Bool
  | .node (.invoke _ _ method argument) => method != "balanceOf" || owners argument
  | _ => false

/-- Whether a request comes up while tokens are followed, and concerns no balance but those of these
owners. -/
def Request.followsTokens (owners : String → Bool) : Request → Bool
  | .store (.token _) | .store (.addToken _) | .store (.setToken _) => true
  | .store (.transfer _ _) | .store (.addTransfer _) => true
  | .store (.putHolding balance) => owners balance.owner
  | .cache (.token _) | .cache (.keepToken _) => true
  | request => request.asksToken owners

section

variable {owners : String → Bool}

theorem Request.followsTokens_of_asksToken {request : Request} (h : request.asksToken owners) :
    request.followsTokens owners := by
  cases request with
  | node => exact h
  | store | cache | cancelled => cases h

theorem Heeds.askingToken {α : Type} {p : Procedure α} (h : Heeds (·.asksToken owners) p) :
    Heeds (·.followsTokens owners) p :=
  h.widen fun _ => Request.followsTokens_of_asksToken

theorem asksToken_of_ne {caller contract method argument : String} (h : method ≠ "balanceOf") :
    Request.asksToken owners (.node (.invoke caller contract method argument)) := by
  simp [Request.asksToken, h]

theorem text_asksToken (caller contract : String) {method : String} (h : method ≠ "balanceOf") :
    Heeds (·.asksToken owners) (Observer.Question.text caller contract method) :=
  heeds_node (asksToken_of_ne h) fun _ => .done _

theorem integer_asksToken {caller contract method argument : String}
    (h : Request.asksToken owners (.node (.invoke caller contract method argument))) :
    Heeds (·.asksToken owners) (Observer.Question.integer caller contract method argument) :=
  heeds_node h fun raw => ofExcept_obeys (Amount.ofResult raw)

theorem description_asksToken (caller contract : String) :
    Heeds (·.asksToken owners) (Observer.Question.description caller contract) := by
  refine Program.Obeys.bind (text_asksToken caller contract (by decide)) fun name => ?_
  refine Program.Obeys.bind (text_asksToken caller contract (by decide)) fun symbol => ?_
  refine Program.Obeys.bind (integer_asksToken (asksToken_of_ne (by decide))) fun places => ?_
  exact heeds_decode fun precision => .done _

/-- Whatever comes of a question to a token, what follows goes on with it. -/
theorem asksToken_attempt {α β : Type} {p : Procedure β} {f : Except Error β → Procedure α}
    (hp : Heeds (·.asksToken owners) p) (hf : ∀ r, Heeds (·.asksToken owners) (f r)) :
    Heeds (·.asksToken owners) (p.attempt.bind f) := by
  refine Program.Obeys.attempt_bind hp (fun _ => id) (fun request reply e hasks he => ?_) hf
  cases request with
  | store => cases hasks
  | node | cache | cancelled => cases he

theorem describeToken_asksToken (caller contract : String) (token : TokenRecord) :
    Heeds (·.asksToken owners) (Observer.describeToken caller contract token) := by
  refine asksToken_attempt (description_asksToken caller contract) fun described => ?_
  cases described with
  | ok info | error e =>
    refine asksToken_attempt (integer_asksToken (asksToken_of_ne (by decide))) fun supply => ?_
    cases supply <;> exact .done _

theorem recordRegistration_followsTokens (caller : String) (seen : Observation) :
    Heeds (·.followsTokens owners) (Observer.recordRegistration caller seen) := by
  unfold Observer.recordRegistration
  split
  · refine heeds_decode fun registration => ?_
    split
    · refine heeds_store rfl fun found => ?_
      cases found with
      | some found => exact .done _
      | none =>
        refine heeds_decode fun token => ?_
        exact Program.Obeys.bind (describeToken_asksToken caller token.id token).askingToken
          fun _ => store_heeds rfl
    · exact .done _
  · exact .done _

theorem isKnown_followsTokens (contract : String) :
    Heeds (·.followsTokens owners) (Observer.isKnown contract) := by
  refine heeds_cache rfl fun remembered => ?_
  cases remembered with
  | true => exact .done _
  | false =>
    refine heeds_store rfl fun stored => ?_
    cases stored with
    | some token => exact heeds_cache rfl fun _ => .done _
    | none => exact .done _

theorem followSetUp_followsTokens (caller contract : String) :
    Heeds (·.followsTokens owners) (Observer.followSetUp caller contract) := by
  refine heeds_store rfl fun found => ?_
  cases found with
  | none => exact .done _
  | some token =>
    exact Program.Obeys.bind (describeToken_asksToken caller contract _).askingToken
      fun _ => store_heeds rfl

theorem refreshSupply_followsTokens (caller contract : String) :
    Heeds (·.followsTokens owners) (refreshSupply caller contract) := by
  refine Program.Obeys.bind
    (integer_asksToken (asksToken_of_ne (by decide))).askingToken fun supply => ?_
  refine heeds_store rfl fun found => ?_
  cases found with
  | none => exact .done _
  | some token => exact store_heeds rfl

theorem refreshHolding_followsTokens (owners : String → Bool) (caller contract : String)
    {owner : String} (howner : owners owner) (precision : Option Nat) :
    Heeds (·.followsTokens owners) (Observer.refreshHolding caller contract owner precision) := by
  refine Program.Obeys.bind (integer_asksToken ?_).askingToken fun raw => store_heeds howner
  simp [Request.asksToken, howner]

end

theorem refreshOwners_followsTokens (caller contract : String) (precision : Option Nat)
    (owners : List String) :
    Heeds (·.followsTokens fun _ => true) (refreshOwners caller contract precision owners) := by
  induction owners with
  | nil => exact .done _
  | cons owner rest ih =>
    exact Program.Obeys.bind
      (passOver_heeds (refreshHolding_followsTokens _ caller contract rfl precision)) fun _ => ih

theorem refreshParties_followsTokens (caller contract : String) (transfer : Transfer) :
    Heeds (·.followsTokens fun _ => true) (refreshParties caller contract transfer) := by
  refine heeds_store rfl fun token => ?_
  refine Program.Obeys.bind (refreshOwners_followsTokens caller contract _ _) fun _ => ?_
  split
  · exact passOver_heeds (refreshSupply_followsTokens caller contract)
  · exact .done _

theorem followTransfer_followsTokens (caller : String) (seen : Observation) (told : Event) :
    Heeds (·.followsTokens fun _ => true) (followTransfer caller seen told) := by
  refine heeds_decode fun transfer => heeds_decode fun operation => ?_
  have hparties := refreshParties_followsTokens caller told.contract transfer
  refine heeds_store rfl fun recorded => ?_
  cases recorded with
  | some recorded => exact hparties
  | none => exact heeds_decode fun record => heeds_store rfl fun _ => hparties

/-- Whatever the events of tokens lead to, it is about tokens. -/
theorem followEvents_followsTokens (caller : String) (seen : Observation) (events : List Event) :
    Heeds (·.followsTokens fun _ => true) (Observer.followEvents caller seen events) := by
  have hevent : ∀ told, Heeds (·.followsTokens fun _ => true)
      (Observer.followEvent caller seen told) := by
    intro told
    unfold Observer.followEvent
    split
    · exact followSetUp_followsTokens caller told.contract
    split
    · exact followTransfer_followsTokens caller seen told
    · exact .done _
  induction events with
  | nil => exact .done _
  | cons told rest ih =>
    refine Program.Obeys.bind (isKnown_followsTokens told.contract) fun known => ?_
    cases known with
    | true => exact Program.Obeys.bind (passOver_heeds (hevent told)) fun _ => ih
    | false => exact ih

/-! ## What is known of tokens -/

/-- Two situations have the same of tokens, and of the balances in them those of all owners but
one. -/
structure SameTokensBut (a : String) (s t : Situation Unit) : Prop where
  tokens : s.memory.tokens = t.memory.tokens
  transfers : s.memory.transfers = t.memory.transfers
  known : s.cache.tokens = t.cache.tokens
  holdings : s.memory.holdings.filter (·.owner != a) = t.memory.holdings.filter (·.owner != a)

section

variable {a : String} {s t u : Situation Unit} {answers answers' : Answers}

namespace SameTokensBut

theorem symm (h : SameTokensBut a s t) : SameTokensBut a t s :=
  ⟨h.tokens.symm, h.transfers.symm, h.known.symm, h.holdings.symm⟩

theorem trans (h : SameTokensBut a s t) (h' : SameTokensBut a t u) : SameTokensBut a s u :=
  ⟨h.tokens.trans h'.tokens, h.transfers.trans h'.transfers, h.known.trans h'.known,
    h.holdings.trans h'.holdings⟩

end SameTokensBut

/-- Two nodes that differ about one owner give the same replies about all else, and what is known of
tokens stays the same. -/
theorem SameTokensBut.answer (hnodes : answers.AgreeBut a answers') (h : SameTokensBut a s t)
    {request : Request} (hfollows : request.followsTokens (· != a)) :
    ((Surroundings.steady answers).answer request s).1 =
        ((Surroundings.steady answers').answer request t).1 ∧
      SameTokensBut a ((Surroundings.steady answers).answer request s).2
        ((Surroundings.steady answers').answer request t).2 := by
  obtain ⟨htokens, htransfers, hknown, hholdings⟩ := h
  cases request with
  | store request =>
    show (Memory.answer request s.memory).1 = (Memory.answer request t.memory).1 ∧
      SameTokensBut a ⟨(), (Memory.answer request s.memory).2, s.cache⟩
        ⟨(), (Memory.answer request t.memory).2, t.cache⟩
    cases request with
    | token id =>
      simp only [Memory.answer, Memory.token?, htokens]
      exact ⟨trivial, htokens, htransfers, hknown, hholdings⟩
    | transfer transaction operation =>
      simp only [Memory.answer, Memory.transfer?, htransfers]
      exact ⟨trivial, htokens, htransfers, hknown, hholdings⟩
    | addToken token =>
      simp only [Memory.answer, Memory.addToken, htokens]
      split
      · exact ⟨rfl, htokens, htransfers, hknown, hholdings⟩
      · exact ⟨rfl, rfl, htransfers, hknown, hholdings⟩
    | addTransfer transfer =>
      simp only [Memory.answer, Memory.addTransfer, htransfers]
      split
      · exact ⟨rfl, htokens, htransfers, hknown, hholdings⟩
      · exact ⟨rfl, htokens, rfl, hknown, hholdings⟩
    | setToken token =>
      refine ⟨rfl, ?_, htransfers, hknown, hholdings⟩
      simp only [Memory.answer, Memory.setToken, htokens]
    | putHolding balance =>
      -- the balance is of another owner, or the request would not be allowed
      refine ⟨rfl, htokens, htransfers, hknown, ?_⟩
      refine Memory.filter_upsert_congr (fun b hb => ?_) (fun b hb => ?_) hholdings <;>
        simp_all
    | _ => cases hfollows
  | node request =>
    have hreply : answers request = answers' request := by
      refine hnodes request ?_
      cases request with
      | invoke caller contract method argument =>
        simp only [Request.followsTokens, Request.asksToken, Bool.or_eq_true, bne_iff_ne] at hfollows
        simp only [asksBalance, Bool.and_eq_false_iff, beq_eq_false_iff_ne]
        exact hfollows
      | block | receipts | assets | balances => cases hfollows
    exact ⟨hreply, htokens, htransfers, hknown, hholdings⟩
  | cache request =>
    cases request with
    | token contract =>
      exact ⟨congrArg (List.contains · contract) hknown, htokens, htransfers, hknown, hholdings⟩
    | keepToken contract =>
      exact ⟨rfl, htokens, htransfers, congrArg (contract :: ·) hknown, hholdings⟩
    | _ => cases hfollows
  | cancelled => cases hfollows

/-- Procedures that follow tokens, and concern no balance of the one owner, agree. -/
theorem SameTokensBut.agree (hnodes : answers.AgreeBut a answers') (h : SameTokensBut a s t)
    {α : Type} {p : Procedure α} (hp : Heeds (·.followsTokens (· != a)) p) :
    AgreeOn answers answers' (SameTokensBut a) p s t :=
  hp.agree (fun _ _ _ hfollows h => h.answer hnodes hfollows) h

/-- What keeps accounts, assets and balances of addresses has nothing to do with tokens. -/
theorem sameTokens_run {α : Type} {p : Procedure α}
    (hp : Heeds (·.observes [.accounts, .assets, .balances]) p) (s : Situation Unit) :
    SameTokensBut a s (Program.run (Surroundings.steady answers).answer p s).2 := by
  refine hp.keeps (M := SameTokensBut a s) (fun request s' hobserves h => ?_)
    ⟨rfl, rfl, rfl, rfl⟩
  have hsame : ∀ part, some part ∉ [Derived.accounts, .assets, .balances].map (·.part?) →
      part.Same s'.memory ((Surroundings.steady answers).answer request s').2.memory :=
    fun part hpart => (Surroundings.steady answers).answer_same
      (fun htarget => hpart (Request.target?_of_observes hobserves htarget)) s'
  have hcache : ((Surroundings.steady answers).answer request s').2.cache.tokens =
      s'.cache.tokens := by
    cases request with
    | cache request =>
      cases request with
      | keepAsset owner id asset => cases owner <;> rfl
      | keepToken => cases hobserves
      | _ => rfl
    | store | node | cancelled => rfl
  refine h.trans ⟨(hsame .tokens (by decide)).symm, (hsame .transfers (by decide)).symm,
    hcache.symm, ?_⟩
  exact congrArg (List.filter _) (hsame .holdings (by decide)).symm

theorem SameTokensBut.meet (h : SameTokensBut a s t) {α : Type} {p : Procedure α}
    (hp : Heeds (·.observes [.accounts, .assets, .balances]) p) :
    MeetOn answers answers' (SameTokensBut a) p s t :=
  ((sameTokens_run hp s).symm.trans h).trans (sameTokens_run hp t)

/-- The owner's own refresh has no part in what others have. -/
theorem sameTokens_refreshHolding (caller contract : String) (precision : Option Nat)
    (s : Situation Unit) :
    SameTokensBut a s (Program.run (Surroundings.steady answers).answer
      (Observer.refreshHolding caller contract a precision) s).2 := by
  have hheeds : Heeds (fun request => request.isQuestion ∨
      ∃ amount, request = .store (.putHolding ⟨contract, a, amount⟩))
      (Observer.refreshHolding caller contract a precision) :=
    Program.Obeys.bind ((integer_heeds caller contract "balanceOf" a).widen fun _ => .inl)
      fun raw => store_heeds (.inr ⟨_, rfl⟩)
  refine hheeds.keeps (M := SameTokensBut a s) (fun request s' hallowed h => ?_)
    ⟨rfl, rfl, rfl, rfl⟩
  rcases hallowed with hquestion | ⟨amount, rfl⟩
  · cases request with
    | node => exact h
    | store | cache | cancelled => cases hquestion
  · refine h.trans ⟨rfl, rfl, rfl, (Memory.filter_upsert_of_neg ?_ ?_ ?_ _).symm⟩ <;> simp

/-! ## The observer of token events -/

section

variable (hnodes : answers.AgreeBut a answers') (henv : (Surroundings.steady answers).Unhindered)
  (henv' : (Surroundings.steady answers').Unhindered)
include hnodes henv henv'

theorem refreshOwners_agree (h : SameTokensBut a s t) (caller contract : String)
    (precision : Option Nat) (owners : List String) :
    AgreeOn answers answers' (SameTokensBut a) (refreshOwners caller contract precision owners)
      s t := by
  induction owners generalizing s t with
  | nil => exact Program.agree_done h
  | cons owner rest ih =>
    refine Program.Agree.bind (agree_passOver
      (refreshHolding_tolerable henv caller contract owner precision)
      (refreshHolding_tolerable henv' caller contract owner precision) ?_) fun _ _ _ h => ih h
    -- the owner's own refresh may end one way here and another there, but touches no other row
    by_cases howner : owner = a
    · subst howner
      exact ((sameTokens_refreshHolding caller contract precision s).symm.trans h).trans
        (sameTokens_refreshHolding caller contract precision t)
    · exact (h.agree hnodes (refreshHolding_followsTokens (· != a) caller contract
        (bne_iff_ne.2 howner) precision)).meet

theorem refreshParties_agree (h : SameTokensBut a s t) (caller contract : String)
    (transfer : Transfer) :
    AgreeOn answers answers' (SameTokensBut a) (refreshParties caller contract transfer) s t := by
  refine Program.Agree.bind (h.agree hnodes (store_heeds rfl)) fun token s t h => ?_
  refine Program.Agree.bind (refreshOwners_agree hnodes henv henv' h caller contract _ _)
    fun _ s t h => ?_
  split
  · exact agree_passOver (refreshSupply_tolerable henv caller contract)
      (refreshSupply_tolerable henv' caller contract)
      (h.agree hnodes (refreshSupply_followsTokens caller contract)).meet
  · exact Program.agree_done h

theorem followTransfer_agree (h : SameTokensBut a s t) (caller : String) (seen : Observation)
    (told : Event) :
    AgreeOn answers answers' (SameTokensBut a) (followTransfer caller seen told) s t := by
  refine Program.agree_decode h fun transfer _ => ?_
  refine Program.agree_decode h fun operation _ => ?_
  refine Program.Agree.bind (h.agree hnodes (p := store (.transfer seen.transaction operation))
    (store_heeds rfl)) fun recorded s t h => ?_
  cases recorded with
  | some recorded => exact refreshParties_agree hnodes henv henv' h caller told.contract transfer
  | none =>
    refine Program.agree_decode h fun record _ => ?_
    exact Program.Agree.bind (h.agree hnodes (p := store (.addTransfer record)) (store_heeds rfl))
      fun _ _ _ h => refreshParties_agree hnodes henv henv' h caller told.contract transfer

theorem followEvents_agree (h : SameTokensBut a s t) (caller : String) (seen : Observation)
    (events : List Event) :
    AgreeOn answers answers' (SameTokensBut a) (Observer.followEvents caller seen events) s t := by
  have hevent : ∀ (told : Event) {s t}, SameTokensBut a s t →
      AgreeOn answers answers' (SameTokensBut a) (Observer.followEvent caller seen told) s t := by
    intro told s t h
    unfold Observer.followEvent
    split
    · exact h.agree hnodes (followSetUp_followsTokens caller told.contract)
    split
    · exact followTransfer_agree hnodes henv henv' h caller seen told
    · exact Program.agree_done h
  induction events generalizing s t with
  | nil => exact Program.agree_done h
  | cons told rest ih =>
    refine Program.Agree.bind (h.agree hnodes (isKnown_followsTokens told.contract))
      fun known s t h => ?_
    cases known with
    | true =>
      exact Program.Agree.bind (agree_passOver (followEvent_tolerable henv caller seen told)
        (followEvent_tolerable henv' caller seen told) (hevent told h).meet) fun _ _ _ h => ih h
    | false => exact ih h

/-- However the refreshes of one owner fare on either side, the standard observers do the same about
tokens on both, and leave the same balances of all other owners. -/
theorem standard_agree_on_tokens (h : SameTokensBut a s t) (caller : String)
    (seen : Observation) :
    AgreeOn answers answers' (SameTokensBut a) (Observer.applyAll (Observer.standard caller) seen)
      s t := by
  refine agree_applyAll (standard_tolerable henv caller seen)
    (standard_tolerable henv' caller seen) ?_ h
  unfold Observer.standard
  simp only [List.forall_mem_cons]
  refine ⟨fun s t h => h.meet ((recordAccount_heeds seen).among (by decide)),
    fun s t h => (h.agree hnodes (recordRegistration_followsTokens caller seen)).meet,
    fun s t h => h.meet ((refreshTransfer_heeds seen).among (by decide)),
    fun s t h => h.meet ((refreshNamed_heeds seen).among (by decide)), fun s t h => ?_, nofun⟩
  show MeetOn _ _ _ (Observer.followReceipt caller seen) s t
  unfold Observer.followReceipt
  split
  · exact h
  · exact (followEvents_agree hnodes henv henv' h caller seen _).bind_meet fun _ _ _ h =>
      h.meet ((refreshDeposits_heeds _).among (by decide))

end

end

end Scan

end ChainIndex
