import ChainIndex.Proofs.GuardedWrites
import ChainIndex.Proofs.TwoRuns

/-!
# Failures that are passed over

Observers go their ways one after another, and what goes wrong with one of them is passed over
unless the store has failed. A store that is always reached never fails while observers are at work:
they look before they write. So where the node does not fail like a store, nothing that goes wrong
with an observer keeps the next one from its work, and two runs of a pipeline go on side by side
however the observers have fared.
-/

namespace ChainIndex.Scan

open Store (Memory)

variable {ω : Type} {env : Surroundings ω} {α : Type}

/-! ## Observers without wide tables -/

/-- A situation without what concerns wide tables only: what is remembered of their columns, and
which inserts into them are made to fail. -/
def Situation.narrow (s : Situation ω) : Situation ω :=
  { s with memory := { s.memory with failing := [] }, cache := { s.cache with columns := [] } }

/-- Adding a record has nothing to do with wide tables. -/
theorem written_narrow {m : Memory} {taken : Bool} {e : Error} (add : Memory → Memory)
    (hadd : add { m with failing := [] } = { add m with failing := [] }) :
    Memory.written { m with failing := [] }
        (if taken then .error e else .ok (add { m with failing := [] })) =
      ((m.written (if taken then .error e else .ok (add m))).1,
        { (m.written (if taken then .error e else .ok (add m))).2 with failing := [] }) := by
  cases taken with
  | true => rfl
  | false =>
    show (Except.ok (), add { m with failing := [] }) = _
    rw [hadd]
    rfl

/-- While observers are at work, wide tables make no difference. -/
theorem answer_narrow (env : Surroundings ω) {kept : List Derived} {request : Request}
    (hobserves : request.observes kept) (s : Situation ω) :
    env.answer request s.narrow = ((env.answer request s).1, (env.answer request s).2.narrow) := by
  cases request with
  | store request =>
    cases hfault : env.fault request s.world with
    | mk fault world =>
    have hfault' : env.fault request s.narrow.world = (fault, world) := hfault
    cases fault with
    | some detail =>
      rw [env.answer_of_fault hfault, env.answer_of_fault hfault']
      rfl
    | none =>
      rw [env.answer_of_no_fault hfault, env.answer_of_no_fault hfault']
      have hmemory : Memory.answer request s.narrow.memory =
          ((Memory.answer request s.memory).1,
            { (Memory.answer request s.memory).2 with failing := [] }) := by
        cases request with
        | addAccount account =>
          exact written_narrow (fun m => { m with accounts := m.accounts ++ [account] }) rfl
        | addToken token =>
          exact written_narrow (fun m => { m with tokens := m.tokens ++ [token] }) rfl
        | addTransfer transfer =>
          exact written_narrow (fun m => { m with transfers := m.transfers ++ [transfer] }) rfl
        | addAsset asset =>
          by_cases hany : s.memory.assets.any (·.id == asset.id)
          · have hold : s.memory.addAsset asset = s.memory := if_pos hany
            have hnew : s.narrow.memory.addAsset asset = s.narrow.memory := if_pos hany
            simp only [Memory.answer, hold, hnew]
            rfl
          · have hold : s.memory.addAsset asset = _ := if_neg hany
            have hnew : s.narrow.memory.addAsset asset = _ := if_neg hany
            simp only [Memory.answer, hold, hnew]
            rfl
        | _ => first | rfl | cases hobserves
      rw [hmemory]
      rfl
  | node request => rfl
  | cache request =>
    cases request with
    | keepAsset owner id asset => cases owner <;> rfl
    | asset owner id => cases owner <;> rfl
    | token | keepToken => rfl
    | columns | keepColumns => cases hobserves
  | cancelled => cases hobserves

/-! ## Failures of observers -/

/-- A procedure does not fail like a store, wherever it starts. -/
def Tolerable (env : Surroundings ω) (p : Procedure α) : Prop :=
  ∀ s e, (Program.run env.answer p s).1 = .error e → e.isStoreFailure = false

/-- What an observer does on a store that it can rely on, it does on any store. -/
theorem Tolerable.of_served {p : Procedure α} (hp : Heeds (·.observes Derived.all) p)
    (hserved : ∀ s : Situation ω, Reliable s → Served env p (fun _ _ => True) s) :
    Tolerable env p := by
  intro s e herror
  -- the run goes like one from the narrow situation, where the store can be relied on
  have hagree : Program.Agree env.answer env.answer (fun s t => t = s.narrow) p p s s.narrow := by
    refine hp.agree (fun request s t hobserves ht => ?_) rfl
    subst ht
    have hnarrow := answer_narrow env hobserves s
    exact ⟨(congrArg Prod.fst hnarrow).symm, congrArg Prod.snd hnarrow⟩
  have hreliable : Reliable s.narrow := ⟨rfl, nofun⟩
  have hend := (Program.ensures_iff.1 (hserved s.narrow hreliable)).2
  rw [← hagree.1, herror] at hend
  exact hend.2

/-- A tolerable procedure is passed over whatever comes of it. -/
theorem Tolerable.run_passOver {p : Procedure Unit} (hp : Tolerable env p) (s : Situation ω) :
    Program.run env.answer (Observer.passOver p) s = (.ok (), (Program.run env.answer p s).2) := by
  unfold Observer.passOver
  rw [Program.run_recover]
  cases hrun : Program.run env.answer p s with
  | mk r s' =>
  cases r with
  | ok a => rfl
  | error e =>
    have he := hp s e (congrArg Prod.fst hrun)
    show Program.run env.answer (if e.isStoreFailure then _ else _) s' = _
    rw [he]
    rfl

section

variable (henv : env.Unhindered)
include henv

theorem refreshBalance_tolerable (owner : Refresher) (address asset : String) :
    Tolerable env (Observer.refreshBalance owner address asset) :=
  .of_served ((refreshBalance_heeds owner address asset).among (by decide)) fun _ hs =>
    refreshBalance_served henv hs owner address asset

theorem refreshHolding_tolerable (caller contract owner : String) (precision : Option Nat) :
    Tolerable env (Observer.refreshHolding caller contract owner precision) :=
  .of_served ((refreshHolding_heeds caller contract owner precision).among (by decide)) fun _ hs =>
    refreshHolding_served henv hs caller contract owner precision

theorem refreshSupply_tolerable (caller contract : String) :
    Tolerable env (Observer.refreshSupply caller contract) :=
  .of_served ((refreshSupply_heeds caller contract).among (by decide)) fun _ hs =>
    refreshSupply_served henv hs caller contract

theorem followEvent_tolerable (caller : String) (seen : Observation) (told : Event) :
    Tolerable env (Observer.followEvent caller seen told) :=
  .of_served ((followEvent_heeds caller seen told).among (by decide)) fun _ hs =>
    followEvent_served henv hs caller seen told

/-- Each of the standard observers is passed over whatever comes of it. -/
theorem standard_tolerable (caller : String) (seen : Observation) :
    ∀ observer ∈ Observer.standard caller, Tolerable env (observer.apply seen) := by
  unfold Observer.standard
  simp only [List.forall_mem_cons]
  exact ⟨.of_served ((recordAccount_heeds seen).among (by decide)) fun _ hs =>
      recordAccount_served henv hs seen,
    .of_served ((recordRegistration_heeds caller seen).among (by decide)) fun _ hs =>
      recordRegistration_served henv hs caller seen,
    .of_served ((refreshTransfer_heeds seen).among (by decide)) fun _ hs =>
      refreshTransfer_served henv hs seen,
    .of_served ((refreshNamed_heeds seen).among (by decide)) fun _ hs =>
      refreshNamed_served henv hs seen,
    .of_served (followReceipt_heeds caller seen) fun _ hs =>
      followReceipt_served henv hs caller seen,
    nofun⟩

end

/-- An operation is shown to all observers of a pipeline, if each of them is tolerable. -/
theorem applyAll_ok {observers : List (Observer interface)} {seen : Observation}
    (h : ∀ observer ∈ observers, Tolerable env (observer.apply seen)) (s : Situation ω) :
    (Program.run env.answer (Observer.applyAll observers seen) s).1 = .ok () := by
  induction observers generalizing s with
  | nil => rfl
  | cons observer rest ih =>
    simp only [List.forall_mem_cons] at h
    unfold Observer.applyAll
    rw [Program.run_bind, h.1.run_passOver]
    exact ih h.2 _

/-! ## Two pipelines -/

section

variable {ω' : Type} {env' : Surroundings ω'} {R : Situation ω → Situation ω' → Prop}
  {s : Situation ω} {t : Situation ω'}

/-- Where tolerable procedures end in related situations, they agree once their failures are passed
over. -/
theorem agree_passOver {p : Procedure Unit} (hp : Tolerable env p) (hp' : Tolerable env' p)
    (hmeet : Program.Meet env.answer env'.answer R p p s t) :
    Program.Agree env.answer env'.answer R (Observer.passOver p) (Observer.passOver p) s t := by
  unfold Program.Agree
  rw [hp.run_passOver, hp'.run_passOver]
  exact ⟨rfl, hmeet⟩

theorem agree_applyAll {observers : List (Observer interface)} {seen : Observation}
    (htolerable : ∀ observer ∈ observers, Tolerable env (observer.apply seen))
    (htolerable' : ∀ observer ∈ observers, Tolerable env' (observer.apply seen))
    (hmeet : ∀ observer ∈ observers, ∀ s t, R s t →
      Program.Meet env.answer env'.answer R (observer.apply seen) (observer.apply seen) s t)
    (hR : R s t) :
    Program.Agree env.answer env'.answer R (Observer.applyAll observers seen)
      (Observer.applyAll observers seen) s t := by
  induction observers generalizing s t with
  | nil => exact Program.agree_done hR
  | cons observer rest ih =>
    simp only [List.forall_mem_cons] at htolerable htolerable' hmeet
    exact (agree_passOver htolerable.1 htolerable'.1 (hmeet.1 s t hR)).bind fun _ _ _ hR =>
      ih htolerable.2 htolerable'.2 hmeet.2 hR

end

end ChainIndex.Scan
