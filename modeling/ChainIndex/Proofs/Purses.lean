import ChainIndex.Proofs.AssetCaches

/-!
# Purses

A purse is a balance that is kept: of an address in an asset, or of an owner in a token. It is
replaced whenever it is asked for again, and by nothing else. So along any procedure that refreshes
purses the amount of each of them stays up to date: it is what the last refresh of it that was
completed has found, the answer of the node or of the token with the places that the refresh went
by.
-/

namespace ChainIndex

/-! ## What a run asks -/

namespace Program

variable {I : Interface} {ε α β σ : Type}

/-- What a run asks, in its order, each request with the state in which it is made. -/
def asks (answer : Answering I σ) : Program I ε α → σ → List (I.Request × σ)
  | .done _, _ => []
  | .fail _, _ => []
  | .ask request next, s =>
    (request, s) :: (next (answer request s).1).asks answer (answer request s).2

/-- The side that answers like another one and keeps what it was asked, and when. -/
def dated (answer : Answering I σ) : Answering I (σ × List (I.Request × σ)) := fun request x =>
  ((answer request x.1).1, (answer request x.1).2, x.2 ++ [(request, x.1)])

section

variable {answer : Answering I σ}

/-- The requests of a sequence are those of its first part and then those of its second. -/
theorem asks_bind (p : Program I ε α) (f : α → Program I ε β) (s : σ) :
    (p.bind f).asks answer s =
      p.asks answer s ++
        match p.run answer s with
        | (.ok a, s) => (f a).asks answer s
        | (.error _, _) => [] := by
  induction p generalizing s with
  | done a => rfl
  | fail e => rfl
  | ask request next ih => simp only [ask_bind, asks, run, ih, List.cons_append]

theorem asks_bind_of_ok {p : Program I ε α} {f : α → Program I ε β} {a : α} {s s' : σ}
    (h : p.run answer s = (.ok a, s')) :
    (p.bind f).asks answer s = p.asks answer s ++ (f a).asks answer s' := by
  rw [asks_bind, h]

/-- What a dated run leaves is what the run leaves, and its requests. -/
theorem run_dated (p : Program I ε α) (s : σ) (past : List (I.Request × σ)) :
    p.run (dated answer) (s, past) =
      ((p.run answer s).1, (p.run answer s).2, past ++ p.asks answer s) := by
  induction p generalizing s past with
  | done a => simp [run, asks]
  | fail e => simp [run, asks]
  | ask request next ih =>
    show (next (answer request s).1).run (dated answer)
      ((answer request s).2, past ++ [(request, s)]) = _
    rw [ih]
    simp [run, asks]

/-- What is known of the end of a run can be added to what the run ensures. -/
theorem Ensures.with_end {p : Program I ε α} {M : σ → Prop} {Q N : Except ε α → σ → Prop} {s : σ}
    (h : p.Ensures answer M Q s) (hend : N (p.run answer s).1 (p.run answer s).2) :
    p.Ensures answer M (fun r s' => Q r s' ∧ N r s') s := by
  rw [ensures_iff] at h ⊢
  exact ⟨h.1, h.2, hend⟩

end

end Program

/-! ## Writes of a balance -/

namespace Store.Memory

/-- A record that is put under its key is found there, and whatever lies under another key is found
as before. -/
theorem find?_upsert {α κ : Type} [DecidableEq κ] {p q : α → Bool} {f : α → α} {a : α} {l : List α}
    {key : α → κ} {k : κ} (hp : ∀ b, p b ↔ key b = key a) (hq : ∀ b, q b ↔ key b = k)
    (hf : ∀ b, p b → f b = a) :
    (upsert p f a l).find? q = if key a = k then some a else l.find? q := by
  have hpa : p a := (hp a).2 rfl
  by_cases hkey : key a = k
  · have hsame : q = p := funext fun b => Bool.eq_iff_iff.2 (by rw [hp, hq, hkey])
    rw [if_pos hkey, hsame]
    unfold upsert
    split
    · rename_i hany
      obtain ⟨b, hb⟩ := Option.isSome_iff_exists.1 (List.isSome_find?.trans hany)
      rw [find?_updateFirst_self l fun b _ hb => (hf b hb).symm ▸ hpa, hb, Option.map_some,
        hf b (List.find?_some hb)]
    · rename_i hany
      have hnone : l.find? p = none := by
        rw [← Option.not_isSome_iff_eq_none, List.isSome_find?]
        exact hany
      rw [List.find?_append, hnone, List.find?_singleton, if_pos hpa]
      rfl
  · have hqa : q a = false := Bool.eq_false_iff.2 fun h => hkey ((hq a).1 h)
    have hother : ∀ b, p b → q b = false := fun b hb =>
      Bool.eq_false_iff.2 fun h => hkey (((hp b).1 hb).symm.trans ((hq b).1 h))
    rw [if_neg hkey]
    unfold upsert
    split
    · exact find?_updateFirst_of_ne l (fun b _ => hother b) fun b _ hb => (hf b hb).symm ▸ hqa
    · rw [List.find?_append, List.find?_singleton, hqa]
      simp

variable (m : Memory)

theorem balance?_putBalance (b : BalanceRecord) (address asset : String) :
    (m.putBalance b).balance? address asset =
      if b.key = (address, asset) then some b else m.balance? address asset := by
  refine find?_upsert (by simp [BalanceRecord.key]) (by simp [BalanceRecord.key]) fun old hold => ?_
  simp only [Bool.and_eq_true, beq_iff_eq] at hold
  rw [hold.1, hold.2]

theorem holding?_putHolding (b : HoldingRecord) (contract owner : String) :
    (m.putHolding b).holding? contract owner =
      if b.key = (contract, owner) then some b else m.holding? contract owner := by
  refine find?_upsert (by simp [HoldingRecord.key]) (by simp [HoldingRecord.key]) fun old hold => ?_
  simp only [Bool.and_eq_true, beq_iff_eq] at hold
  rw [hold.1, hold.2]

/-- The decimal places that are on record for a token. -/
def placesOf (m : Memory) (contract : String) : Option Nat :=
  ((m.token? contract).bind (·.precision)).bind Observer.places

end Store.Memory

namespace Scan

open Observer (knownAsset places refreshBalance refreshHolding refreshOwners refreshSupply
  followTransfer Question.holding)
open Store (Memory)

/-! ## Purses -/

/-- A balance that is kept: what an address has in an asset, or an owner in a token. -/
inductive Purse where
  | native (address asset : String)
  | token (contract owner : String)
deriving DecidableEq

namespace Purse

/-- The request that sets the amount of a purse. -/
def put : Purse → String → Store.Request
  | .native address asset, amount => .putBalance ⟨address, asset, amount⟩
  | .token contract owner, amount => .putHolding ⟨contract, owner, amount⟩

/-- The amount that is stored for a purse. -/
def amount? (m : Memory) : Purse → Option String
  | .native address asset => (m.balance? address asset).map (·.amount)
  | .token contract owner => (m.holding? contract owner).map (·.amount)

variable {purse other : Purse} {amount amount' : String}

theorem of_put_eq (h : purse.put amount = other.put amount') : purse = other ∧ amount = amount' := by
  cases purse <;> cases other <;> cases h <;> exact ⟨rfl, rfl⟩

/-- Setting an amount always works, and sets nothing else. -/
theorem answer_put (purse : Purse) (amount : String) (m : Memory) :
    (∃ done, (Memory.answer (purse.put amount) m).1 = .ok done) ∧
      ∀ other, amount? (Memory.answer (purse.put amount) m).2 other =
        if purse = other then some amount else amount? m other := by
  cases purse with
  | native address asset =>
    refine ⟨⟨(), rfl⟩, fun other => ?_⟩
    cases other with
    | native address' asset' =>
      show Option.map _ ((m.putBalance _).balance? address' asset') = _
      rw [Store.Memory.balance?_putBalance]
      simp only [BalanceRecord.key, Prod.mk.injEq, native.injEq]
      split <;> rfl
    | token contract owner => rfl
  | token contract owner =>
    refine ⟨⟨(), rfl⟩, fun other => ?_⟩
    cases other with
    | native address asset => rfl
    | token contract' owner' =>
      show Option.map _ ((m.putHolding _).holding? contract' owner') = _
      rw [Store.Memory.holding?_putHolding]
      simp only [HoldingRecord.key, Prod.mk.injEq, token.injEq]
      split <;> rfl

end Purse

/-! ## The last refresh of a purse -/

/-- A request, and how things stood when it was made. -/
abbrev Asked (ω : Type) := interface.Request × Situation ω

/-- What has been asked so far. -/
abbrev Past (ω : Type) := List (Asked ω)

section

variable {ω : Type} (env : Surroundings ω)

/-- A refresh of a purse that starts in a situation, and the amount that it finds: what the node says
an address has in an asset, with the places of the asset's record that the refresh goes by, or what a
token says an owner has, with the places on record for the token. -/
inductive Finds : Purse → Procedure Unit → Situation ω → String → Prop where
  | native {s asked found : Situation ω} {balances : Balances} {record : AssetRecord}
      (owner : Refresher) (address asset : String)
      (told : Program.run env.answer (node (.balances address)) s = (.ok balances, asked))
      (known : Program.run env.answer (knownAsset owner asset) asked =
        (.ok (some record), found)) :
      Finds (.native address asset) (refreshBalance owner address asset) s
        (Amount.scale ((balances.lookup asset).getD 0) (places record.precision))
  | token {s asked : Situation ω} {raw : Int} (caller contract owner : String)
      (told : Program.run env.answer (Question.holding caller contract owner) s =
        (.ok raw, asked)) :
      Finds (.token contract owner)
        (refreshHolding caller contract owner (s.memory.placesOf contract)) s
        (Amount.scale raw (s.memory.placesOf contract))

/-- A request has set the amount of a purse. -/
def Purse.SetBy (purse : Purse) (x : Asked ω) : Prop :=
  ∃ amount done, x.1 = Request.store (purse.put amount) ∧
    (env.answer (.store (purse.put amount)) x.2).1 = .ok done

/-- The last refresh of a purse that was completed has found this amount. -/
def LastFound (past : Past ω) (purse : Purse) (amount : String) : Prop :=
  ∃ (p : Procedure Unit) (s after : Situation ω) (prior later : Past ω),
    past = prior ++ p.asks env.answer s ++ later ∧
      Finds env purse p s amount ∧ Program.run env.answer p s = (.ok (), after) ∧
      ∀ x ∈ later, ¬purse.SetBy env x

/-- The stored amount of a purse is what its last completed refresh has found, or what was stored at
first if there was none. -/
def UpToDate (first : Memory) (past : Past ω) (m : Memory) (purse : Purse) : Prop :=
  (purse.amount? m = purse.amount? first ∧ ∀ x ∈ past, ¬purse.SetBy env x) ∨
    ∃ amount, purse.amount? m = some amount ∧ LastFound env past purse amount

/-- One row for each purse, and the amounts up to date. -/
structure Current (first : Memory) (past : Past ω) (m : Memory) : Prop where
  balances : (m.balances.map (·.key)).Nodup
  holdings : (m.holdings.map (·.key)).Nodup
  amounts : ∀ purse, UpToDate env first past m purse

end

section

variable {ω : Type} {env : Surroundings ω} {first : Memory} {past : Past ω} {s : Situation ω}

/-! ## One request -/

theorem LastFound.later {purse : Purse} {amount : String} (h : LastFound env past purse amount)
    {x : Asked ω} (hx : ¬purse.SetBy env x) :
    LastFound env (past ++ [x]) purse amount := by
  obtain ⟨p, s, after, prior, later, rfl, hfinds, hrun, hlater⟩ := h
  refine ⟨p, s, after, prior, later ++ [x], List.append_assoc _ _ _, hfinds, hrun, ?_⟩
  intro y hy
  rcases List.mem_append.1 hy with hy | hy
  · exact hlater y hy
  · rwa [List.mem_singleton.1 hy]

theorem UpToDate.later {m m' : Memory} {purse : Purse} (h : UpToDate env first past m purse)
    {x : Asked ω} (hx : ¬purse.SetBy env x)
    (hm : purse.amount? m' = purse.amount? m) : UpToDate env first (past ++ [x]) m' purse := by
  rcases h with ⟨hfirst, hnone⟩ | ⟨amount, hamount, hlast⟩
  · refine .inl ⟨hm.trans hfirst, fun y hy => ?_⟩
    rcases List.mem_append.1 hy with hy | hy
    · exact hnone y hy
    · rwa [List.mem_singleton.1 hy]
  · exact .inr ⟨amount, hm.trans hamount, hlast.later hx⟩

/-- Where balances stay as they are, so do the amounts of purses. -/
theorem Purse.amount?_congr {m m' : Memory} (hbalances : m'.balances = m.balances)
    (hholdings : m'.holdings = m.holdings) (purse : Purse) : purse.amount? m' = purse.amount? m := by
  cases purse with
  | native address asset => rw [amount?, amount?, Store.Memory.balance?, hbalances]; rfl
  | token contract owner => rw [amount?, amount?, Store.Memory.holding?, hholdings]; rfl

/-- A request that writes no balance leaves everything up to date. -/
theorem Current.spared (h : Current env first past s.memory) {request : Request}
    (hbalances : request.target? ≠ some .balances) (hholdings : request.target? ≠ some .holdings) :
    Current env first (past ++ [((request, s) : Asked ω)]) (env.answer request s).2.memory := by
  have hb : (env.answer request s).2.memory.balances = s.memory.balances :=
    env.answer_same hbalances s
  have hh : (env.answer request s).2.memory.holdings = s.memory.holdings :=
    env.answer_same hholdings s
  refine ⟨hb ▸ h.balances, hh ▸ h.holdings, fun purse => ?_⟩
  refine (h.amounts purse).later ?_ (purse.amount?_congr hb hh)
  rintro ⟨amount, done, hput, -⟩
  have hrequest : request = .store (purse.put amount) := hput
  subst hrequest
  cases purse with
  | native => exact hbalances rfl
  | token => exact hholdings rfl

/-- So does a request that sets the amount of a purse to what has just been found. -/
theorem Current.put (h : Current env first past s.memory) {purse : Purse} {amount : String}
    (hlast : ∀ done, (env.answer (.store (purse.put amount)) s).1 = .ok done →
      LastFound env (past ++ [((Request.store (purse.put amount), s) : Asked ω)]) purse amount) :
    Current env first (past ++ [((Request.store (purse.put amount), s) : Asked ω)])
      (env.answer (.store (purse.put amount)) s).2.memory := by
  -- the request can only have set this purse
  have hsets : ∀ other : Purse, other.SetBy env (Request.store (purse.put amount), s) →
      other = purse ∧ ∃ done, (env.answer (.store (purse.put amount)) s).1 = .ok done := by
    rintro other ⟨amount', done, hput, hdone⟩
    obtain ⟨rfl, rfl⟩ := Purse.of_put_eq (Request.store.inj hput)
    exact ⟨rfl, done, hdone⟩
  obtain ⟨⟨done, hdone⟩, hamounts⟩ := purse.answer_put amount s.memory
  -- the store fails and keeps what it has, or sets this purse and no other
  obtain ⟨detail, world, hstore⟩ | ⟨world, hstore⟩ :=
    env.answer_store_cases (purse.put amount) s
  · rw [hstore] at hsets ⊢
    refine ⟨h.balances, h.holdings, fun other => (h.amounts other).later (fun hset => ?_) rfl⟩
    obtain ⟨-, done, hdone⟩ := hsets other hset
    cases hdone
  · rw [hstore] at hlast hsets ⊢
    refine ⟨?_, ?_, fun other => ?_⟩
    · cases purse with
      | native => exact Store.Memory.nodup_keys_putBalance h.balances _
      | token => exact h.balances
    · cases purse with
      | native => exact h.holdings
      | token => exact Store.Memory.nodup_keys_putHolding h.holdings _
    · by_cases hsame : purse = other
      · subst hsame
        exact .inr ⟨amount, (hamounts purse).trans (if_pos rfl), hlast done hdone⟩
      · exact (h.amounts other).later (fun hset => hsame (hsets other hset).1.symm)
          ((hamounts other).trans (if_neg hsame))

/-! ## Refreshes -/

/-- From a situation and what was asked before it, everything is up to date at every moment of a
procedure and at its end. -/
abbrev StaysCurrent {α : Type} (env : Surroundings ω) (first : Memory) (p : Procedure α)
    (s : Situation ω) (past : Past ω) : Prop :=
  p.Ensures (Program.dated env.answer) (fun x => Current env first x.2 x.1.memory)
    (fun _ x => Current env first x.2 x.1.memory) (s, past)

/-- What observes without touching balances keeps them up to date, and so does what follows it, if
it does so after what that has asked. -/
theorem Current.observing (h : Current env first past s.memory) {α β : Type} (kept : List Derived)
    {p : Procedure α} {f : α → Procedure β} (hp : Heeds (·.observes kept) p)
    (hbalances : some .balances ∉ kept.map (·.part?))
    (hholdings : some .holdings ∉ kept.map (·.part?))
    (hf : ∀ a s', Program.run env.answer p s = (.ok a, s') →
      Current env first (past ++ p.asks env.answer s) s'.memory →
        StaysCurrent env first (f a) s' (past ++ p.asks env.answer s)) :
    StaysCurrent env first (p.bind f) s past := by
  have hensures := hp.ensures (M := fun x => Current env first x.2 x.1.memory)
    (Program.dated env.answer) (fun request x hobserves hx => Current.spared hx
      (fun htarget => hbalances (Request.target?_of_observes hobserves htarget))
      fun htarget => hholdings (Request.target?_of_observes hobserves htarget))
    (s := (s, past)) h
  refine Program.ensures_bind.2 (Program.Ensures.mono hensures (fun _ hx => hx) ?_)
  rintro r x ⟨hx, hr, hend⟩
  rw [Program.run_dated] at hr hend
  subst hend
  cases r with
  | error e => exact hx
  | ok a => exact hf a _ (Prod.ext hr.symm rfl) hx

/-- A request that sets a purse to what its refresh has found. -/
theorem Current.setting (h : Current env first past s.memory) (purse : Purse) {amount : String}
    (hlast : ∀ done, (env.answer (.store (purse.put amount)) s).1 = .ok done →
      LastFound env (past ++ [((Request.store (purse.put amount), s) : Asked ω)]) purse amount) :
    StaysCurrent env first (store (purse.put amount)) s past := by
  have hput := h.put hlast
  refine ⟨hput, ?_⟩
  show Program.Ensures (Program.dated env.answer) _ _ (Program.ofExcept
    (env.answer (.store (purse.put amount)) s).1) _
  cases (env.answer (.store (purse.put amount)) s).1 <;> exact hput

theorem asks_store (request : Store.Request) (s : Situation ω) :
    (store request).asks env.answer s = [((Request.store request, s) : Asked ω)] := by
  show (_, s) :: (Program.ofExcept (env.answer (.store request) s).1).asks env.answer _ = _
  cases (env.answer (.store request) s).1 <;> rfl

/-- A refresh that has been told the balances of an address, and knows the asset, sets the balance
at last. -/
theorem refreshBalance_sets {owner : Refresher} {address asset : String} {balances : Balances}
    {record : AssetRecord} {asked found : Situation ω}
    (htold : Program.run env.answer (node (.balances address)) s = (.ok balances, asked))
    (hknown : Program.run env.answer (knownAsset owner asset) asked = (.ok (some record), found)) :
    let amount := Amount.scale ((balances.lookup asset).getD 0) (places record.precision)
    Program.run env.answer (refreshBalance owner address asset) s =
        Program.run env.answer (store (.putBalance ⟨address, asset, amount⟩)) found ∧
      (refreshBalance owner address asset).asks env.answer s =
        (node (.balances address)).asks env.answer s ++
          ((knownAsset owner asset).asks env.answer asked ++
            [((Request.store (.putBalance ⟨address, asset, amount⟩), found) : Asked ω)]) := by
  intro amount
  unfold refreshBalance
  rw [Program.bind_eq, Program.run_bind, htold, Program.asks_bind_of_ok htold]
  simp only [Program.bind_eq]
  rw [Program.run_bind, hknown, Program.asks_bind_of_ok hknown]
  exact ⟨rfl, congrArg (fun last => _ ++ (_ ++ last)) (asks_store _ found)⟩

/-- A refresh that has been told what an owner has sets the balance. -/
theorem refreshHolding_sets {caller contract owner : String} (precision : Option Nat) {raw : Int}
    {asked : Situation ω}
    (htold : Program.run env.answer (Question.holding caller contract owner) s =
      (.ok raw, asked)) :
    let amount := Amount.scale raw precision
    Program.run env.answer (refreshHolding caller contract owner precision) s =
        Program.run env.answer (store (.putHolding ⟨contract, owner, amount⟩)) asked ∧
      (refreshHolding caller contract owner precision).asks env.answer s =
        (Question.holding caller contract owner).asks env.answer s ++
          [((Request.store (.putHolding ⟨contract, owner, amount⟩), asked) : Asked ω)] := by
  intro amount
  unfold refreshHolding
  rw [Program.bind_eq, Program.run_bind, htold, Program.asks_bind_of_ok htold]
  exact ⟨rfl, congrArg (_ ++ ·) (asks_store _ asked)⟩

/-- A refresh that has just set a purse is the last one of it. -/
theorem LastFound.just {purse : Purse} {amount : String} {p : Procedure Unit}
    {before : Past ω} {last : Situation ω} (hfinds : Finds env purse p s amount)
    {after : Situation ω} (hrun : Program.run env.answer p s = (.ok (), after))
    (hasks : p.asks env.answer s =
      before ++ [((Request.store (purse.put amount), last) : Asked ω)]) :
    LastFound env (past ++ before ++ [((Request.store (purse.put amount), last) : Asked ω)]) purse
      amount := by
  refine ⟨p, s, after, past, [], ?_, hfinds, hrun, fun x hx => absurd hx List.not_mem_nil⟩
  rw [hasks, List.append_nil, List.append_assoc]

theorem Current.refreshBalance (h : Current env first past s.memory) (owner : Refresher)
    (address asset : String) :
    StaysCurrent env first (refreshBalance owner address asset) s past := by
  refine h.observing [] (node_heeds rfl) (by decide) (by decide)
    fun balances asked htold h => ?_
  refine h.observing _ (knownAsset_heeds owner asset) (by decide) (by decide)
    fun record? found hknown h => ?_
  cases record? with
  | none => exact h
  | some record =>
    obtain ⟨hrun, hasks⟩ := refreshBalance_sets htold hknown
    refine h.setting (.native address asset) fun done hdone => ?_
    rw [env.run_store] at hrun
    rw [← List.append_assoc] at hasks
    rw [List.append_assoc past]
    exact .just (.native owner address asset htold hknown) (hrun.trans (Prod.ext hdone rfl)) hasks

theorem Current.refreshHolding (h : Current env first past s.memory) (caller contract owner : String)
    {precision : Option Nat} (hplaces : s.memory.placesOf contract = precision) :
    StaysCurrent env first (refreshHolding caller contract owner precision) s past := by
  subst hplaces
  refine h.observing [] (integer_heeds caller contract "balanceOf" owner).asking
    (by decide) (by decide) fun raw asked htold h => ?_
  obtain ⟨hrun, hasks⟩ := refreshHolding_sets (s.memory.placesOf contract) htold
  refine h.setting (.token contract owner) fun done hdone => ?_
  rw [env.run_store] at hrun
  exact .just (.token caller contract owner htold) (hrun.trans (Prod.ext hdone rfl)) hasks

/-- Passing over a failure asks nothing more. -/
theorem ensures_passOver {σ : Type} {answer : Program.Answering interface σ} {M M' : σ → Prop}
    {p : Procedure Unit} {x : σ} (h : p.Ensures answer M (fun _ x' => M' x') x) :
    (Observer.passOver p).Ensures answer M (fun _ x' => M' x') x := by
  refine Program.ensures_recover.2 (Program.Ensures.mono h (fun _ h => h) fun r x' hx' => ?_)
  cases r with
  | ok a => exact hx'
  | error e =>
    show Program.Ensures answer M _ (if e.isStoreFailure then _ else _) x'
    split <;> exact hx'

/-- What writes no token leaves the places on record as they are. -/
theorem placesOf_run {α : Type} {kept : List Derived} {p : Procedure α}
    (hp : Heeds (·.observes kept) p) (htokens : some .tokens ∉ kept.map (·.part?))
    (contract : String) :
    (Program.run env.answer p s).2.memory.placesOf contract = s.memory.placesOf contract := by
  refine hp.keeps (M := fun s' : Situation ω =>
    s'.memory.placesOf contract = s.memory.placesOf contract) (fun request s' hobserves hs' => ?_) rfl
  have hsame : (env.answer request s').2.memory.tokens = s'.memory.tokens :=
    env.answer_same (fun htarget => htokens (Request.target?_of_observes hobserves htarget)) s'
  rw [← hs', Store.Memory.placesOf, Store.Memory.token?, hsame]
  rfl

theorem Current.refreshOwners (h : Current env first past s.memory) (caller : String)
    {contract : String} {precision : Option Nat} (hplaces : s.memory.placesOf contract = precision)
    (owners : List String) :
    StaysCurrent env first (refreshOwners caller contract precision owners) s past := by
  -- along the owners, the places on record stay those that the transfer was read with
  have hboth : (Observer.refreshOwners caller contract precision owners).Ensures
      (Program.dated env.answer) (fun x => Current env first x.2 x.1.memory)
      (fun _ x => Current env first x.2 x.1.memory ∧ x.1.memory.placesOf contract = precision)
      (s, past) := by
    induction owners generalizing s past with
    | nil => exact ⟨h, hplaces⟩
    | cons owner rest ih =>
      have hone := (h.refreshHolding caller contract owner hplaces).with_end
        (N := fun _ x => x.1.memory.placesOf contract = precision) (by
          rw [Program.run_dated]
          exact (placesOf_run (refreshHolding_heeds caller contract owner precision) (by decide)
            contract).trans hplaces)
      refine Program.ensures_bind.2 (Program.Ensures.mono (ensures_passOver hone) (fun _ h => h) ?_)
      rintro r ⟨s', past'⟩ ⟨h', hplaces'⟩
      cases r with
      | ok a => exact ih h' hplaces'
      | error e => exact ⟨h', hplaces'⟩
  exact Program.Ensures.mono hboth (fun _ h => h) fun _ _ h => h.1

/-- What observes without touching balances keeps them up to date. -/
theorem Current.observed (h : Current env first past s.memory) {α : Type} {kept : List Derived}
    {p : Procedure α} (hp : Heeds (·.observes kept) p)
    (hbalances : some .balances ∉ kept.map (·.part?))
    (hholdings : some .holdings ∉ kept.map (·.part?)) : StaysCurrent env first p s past := by
  have hdone := h.observing (f := .done) _ hp hbalances hholdings fun _ _ _ h => h
  rwa [Program.bind_done] at hdone

theorem Current.refreshParties (h : Current env first past s.memory) (caller contract : String)
    (transfer : Transfer) :
    StaysCurrent env first (refreshParties caller contract transfer) s past := by
  refine h.observing [] (store_heeds rfl) (by decide) (by decide) fun token s' hread h => ?_
  rw [env.run_store] at hread
  have hfound := token?_of_answer (congrArg Prod.fst hread)
  rw [hread] at hfound
  have hplaces : s'.memory.placesOf contract = (token.bind (·.precision)).bind places := by
    rw [hfound]
    rfl
  refine Program.ensures_bind.2 (Program.Ensures.mono
    (h.refreshOwners caller hplaces transfer.parties) (fun _ h => h) ?_)
  rintro r ⟨s'', past''⟩ h
  cases r with
  | error e => exact h
  | ok a =>
    show StaysCurrent env first (if transfer.mintsOrBurns then _ else _) s'' past''
    split
    · exact ensures_passOver
        (Current.observed h (refreshSupply_heeds caller contract) (by decide) (by decide))
    · exact h

theorem Current.followTransfer (h : Current env first past s.memory) (caller : String)
    (seen : Observation) (told : Event) :
    StaysCurrent env first (followTransfer caller seen told) s past := by
  unfold Observer.followTransfer
  cases Transfer.ofArgument told.argument with
  | error e => exact h
  | ok transfer =>
    cases Quantity.operationIndex.int32 seen.index with
    | error e => exact h
    | ok operation =>
      refine h.observing (p := store (.transfer seen.transaction operation)) []
        (store_heeds rfl) (by decide) (by decide) fun recorded s' _ h => ?_
      cases recorded with
      | some recorded => exact h.refreshParties caller told.contract transfer
      | none =>
        cases Observer.transferRecord seen told transfer operation with
        | error e => exact h
        | ok record =>
          exact h.observing (p := store (.addTransfer record)) [.transfers]
            (store_heeds rfl) (by decide) (by decide) fun _ _ _ h =>
              h.refreshParties caller told.contract transfer

end

end Scan

end ChainIndex
