import ChainIndex.Proofs.Anatomy

/-!
# What is written about tokens

The records of tokens are written where a token is recorded, where it is set up and where its supply
is asked for again; balances in tokens are written where those of some owners are asked for again.
All else that a run does writes neither. What these four go along, and the other requests, a run
goes along.
-/

namespace ChainIndex.Scan

open Observer (recordToken recordRegistration followSetUp refreshSupply refreshOwners
  followTransfer followEvent followEvents followReceipt)

variable {ω : Type} {env : Surroundings ω} {s : Situation ω}
  {T : Situation ω → Situation ω → Prop}

/-! ## Going along -/

section

variable {α : Type} {Q : Except Error α → Situation ω → Prop}

/-- Passing over a failure asks nothing more. -/
theorem along_passOver {M : Situation ω → Prop} {p : Procedure Unit}
    (h : p.Along env.answer T (fun _ s' => M s') s) :
    (Observer.passOver p).Along env.answer T (fun _ s' => M s') s := by
  refine Program.along_recover.2 (Program.Along.mono h ?_)
  intro r s' hs'
  cases r with
  | ok a => exact hs'
  | error e =>
    show Program.Along env.answer T _ (if e.isStoreFailure then _ else _) s'
    split <;> exact hs'

/-- A request to the store. -/
theorem along_store {request : Store.Request}
    {Q : Except Error request.Result → Situation ω → Prop}
    (hT : T s (env.answer (.store request) s).2)
    (hQ : Q (env.answer (.store request) s).1 (env.answer (.store request) s).2) :
    (store request).Along env.answer T Q s := by
  refine ⟨hT, ?_⟩
  show Program.Along env.answer _ Q (Program.ofExcept (env.answer (.store request) s).1) _
  cases hreply : (env.answer (.store request) s).1 with
  | ok v => rwa [hreply] at hQ
  | error e => rwa [hreply] at hQ

/-- A request to the store, and what follows if it is answered. -/
theorem along_read {request : Store.Request} {f : request.Result → Procedure α}
    (hT : T s (env.answer (.store request) s).2)
    (herror : ∀ e, Q (.error e) (env.answer (.store request) s).2)
    (hf : ∀ v, (env.answer (.store request) s).1 = .ok v →
      (f v).Along env.answer T Q (env.answer (.store request) s).2) :
    ((store request).bind f).Along env.answer T Q s := by
  refine (along_store (Q := fun r s' => r = (env.answer (.store request) s).1 ∧
    s' = (env.answer (.store request) s).2) hT ⟨rfl, rfl⟩).bind ?_ ?_
  · rintro e s' ⟨-, rfl⟩
    exact herror e
  · rintro v s' ⟨hreply, rfl⟩
    exact hf v hreply.symm

/-- A question leaves the store alone. -/
theorem along_question {p : Procedure α} (h : Heeds (·.isQuestion) p)
    (hT : ∀ (request : Node.Request) s, T s (env.answer (.node request) s).2) :
    p.Along env.answer T
      (fun r s' => r = (Program.run env.answer p s).1 ∧ s'.memory = s.memory) s := by
  have hkeeps : ∀ (request : Request) (s' : Situation ω), request.isQuestion →
      s'.memory = s.memory → (env.answer request s').2.memory = s.memory := by
    intro request s' hquestion hsame
    cases request with
    | node request => exact hsame
    | store | cache | cancelled => cases hquestion
  refine Program.Obeys.along h (fun request s hquestion => ?_) ⟨rfl, h.keeps hkeeps rfl⟩
  cases request with
  | node request => exact hT request s
  | store | cache | cancelled => cases hquestion

/-- A procedure that makes entries leaves a scanner sound. -/
theorem along_enters {manner : Manner} {es : List Entry} {p : Procedure α}
    {post : α → Situation ω → Prop} (h : p.Along env.answer T (fun _ _ => True) s)
    (henters : Enters (Frame.plain env) (fun _ => .ok []) manner es p post s) :
    p.Along env.answer T (fun r s' => Sound s' ∧ ∀ a, r = .ok a → post a s') s := by
  obtain ⟨-, hend, hpost⟩ := Program.ensures_iff.1 henters.keeps
  exact Program.along_iff.2 ⟨(Program.along_iff.1 h).1, hend.sound, hpost⟩

end

/-- What the store replies about a token. -/
theorem token?_of_answer {contract : String} {found : Option TokenRecord}
    (h : (env.answer (.store (.token contract)) s).1 = .ok found) :
    found = (env.answer (.store (.token contract)) s).2.memory.token? contract := by
  obtain ⟨detail, world, hstore⟩ | ⟨world, hstore⟩ := env.answer_store_cases (.token contract) s
  · rw [hstore] at h
    cases h
  · rw [hstore] at h ⊢
    exact (Except.ok.inj h).symm

/-! ## Runs -/

/-- The writers of tokens and of balances in them go along, and so does every request that writes
neither. -/
structure TokenWriters (env : Surroundings ω) (caller : String)
    (T : Situation ω → Situation ω → Prop) : Prop where
  other : ∀ (request : Request) s, request.target? ≠ some .tokens →
    request.target? ≠ some .holdings → T s (env.answer request s).2
  record : ∀ seen r s, (recordToken caller seen r).Along env.answer T (fun _ _ => True) s
  setUp : ∀ contract s, (followSetUp caller contract).Along env.answer T (fun _ _ => True) s
  supply : ∀ contract s, (refreshSupply caller contract).Along env.answer T (fun _ _ => True) s
  owners : ∀ {contract : String} {token : TokenRecord} (owners : List String)
    {s : Situation ω}, s.memory.token? contract = some token →
      (refreshOwners caller contract (token.precision.bind Observer.places) owners).Along
        env.answer T (fun _ _ => True) s

namespace TokenWriters

variable {caller : String}

/-- What keeps neither tokens nor balances in them. -/
theorem observes (h : TokenWriters env caller T) {α : Type} {kept : List Derived}
    {p : Procedure α} (hp : Heeds (·.observes kept) p) (htokens : some .tokens ∉ kept.map (·.part?))
    (hholdings : some .holdings ∉ kept.map (·.part?)) :
    p.Along env.answer T (fun _ _ => True) s :=
  Program.Obeys.along hp
    (fun request s hobserves => h.other request s
      (fun htarget => htokens (Request.target?_of_observes hobserves htarget))
      fun htarget => hholdings (Request.target?_of_observes hobserves htarget)) trivial

theorem parties (h : TokenWriters env caller T) {contract : String} (transfer : Transfer)
    (hknown : (s.memory.token? contract).isSome) :
    (refreshParties caller contract transfer).Along env.answer T (fun _ _ => True) s := by
  refine along_read (h.other _ s nofun nofun) (fun _ => trivial) fun found hreply => ?_
  obtain ⟨token, htoken⟩ := Option.isSome_iff_exists.1
    ((env.answer_grows (.store (.token contract)) s).token _ hknown)
  rw [token?_of_answer hreply, htoken]
  refine (h.owners transfer.parties htoken).bind (fun _ _ _ => trivial) fun _ s' _ => ?_
  split
  · exact along_passOver (h.supply contract s')
  · trivial

theorem transfer (h : TokenWriters env caller T) (seen : Observation) {told : Event}
    (hknown : (s.memory.token? told.contract).isSome) :
    (followTransfer caller seen told).Along env.answer T (fun _ _ => True) s := by
  have hgrows : ∀ (request : Store.Request) {s : Situation ω},
      (s.memory.token? told.contract).isSome →
        ((env.answer (.store request) s).2.memory.token? told.contract).isSome :=
    fun request s hs => (env.answer_grows (.store request) s).token _ hs
  unfold followTransfer
  cases Transfer.ofArgument told.argument with
  | error e => trivial
  | ok transfer =>
    cases Quantity.operationIndex.int32 seen.index with
    | error e => trivial
    | ok operation =>
      refine along_read (h.other _ s nofun nofun) (fun _ => trivial) fun recorded _ => ?_
      cases recorded with
      | some recorded => exact h.parties transfer (hgrows _ hknown)
      | none =>
        cases Observer.transferRecord seen told transfer operation with
        | error e => trivial
        | ok record =>
          refine along_read (h.other _ _ nofun nofun) (fun _ => trivial) fun _ _ => ?_
          exact h.parties transfer (hgrows _ (hgrows _ hknown))

theorem event (h : TokenWriters env caller T) (hs : Sound s) (seen : Observation) {told : Event}
    (hknown : (s.memory.token? told.contract).isSome) :
    (followEvent caller seen told).Along env.answer T (fun _ s' => Sound s') s := by
  have halong : (followEvent caller seen told).Along env.answer T (fun _ _ => True) s := by
    unfold followEvent
    split
    · exact h.setUp told.contract s
    split
    · exact h.transfer seen hknown
    · trivial
  exact (along_enters halong (Observer.followEvent_enters ⟨trivial, hs⟩ caller seen hknown)).mono
    fun _ _ hend => hend.1

theorem events (h : TokenWriters env caller T) (hs : Sound s) (seen : Observation)
    (events : List Event) :
    (followEvents caller seen events).Along env.answer T (fun _ s' => Sound s') s := by
  induction events generalizing s with
  | nil => exact hs
  | cons told rest ih =>
    have hknown := along_enters
      (h.observes (s := s) (isKnown_heeds told.contract) (by decide) (by decide))
      (Observer.isKnown_enters ⟨trivial, hs⟩ told.contract)
    refine hknown.bind (fun _ _ hend => hend.1) fun known s' ⟨hs', hpost⟩ => ?_
    cases known with
    | true =>
      exact (along_passOver (h.event hs' seen (hpost true rfl).symm)).bind (fun _ _ hs => hs)
        fun _ _ hs => ih hs
    | false => exact ih hs'

/-- What the standard observers go along. -/
theorem applyAll (h : TokenWriters env caller T) (hs : Sound s) (seen : Observation) :
    (Observer.applyAll (Observer.standard caller) seen).Along env.answer T (fun _ _ => True) s := by
  have hpassed : ∀ {p : Procedure Unit} {es : List Entry} {s : Situation ω},
      p.Along env.answer T (fun _ _ => True) s →
      Enters (Frame.plain env) (fun _ => .ok []) .lenient es p (fun _ _ => True) s →
      (Observer.passOver p).Along env.answer T (fun _ s' => Sound s') s :=
    fun halong henters => along_passOver ((along_enters halong henters).mono fun _ _ hend => hend.1)
  refine (hpassed (h.observes (recordAccount_heeds seen) (by decide) (by decide))
    (Observer.recordAccount_enters ⟨trivial, hs⟩ seen)).bind (fun _ _ _ => trivial) fun _ s hs => ?_
  have hregistration : (recordRegistration caller seen).Along env.answer T (fun _ _ => True) s := by
    unfold recordRegistration
    split
    · cases Registration.ofPayload seen.payload with
      | error e => trivial
      | ok r =>
        show Program.Along env.answer T _ (if r.declaresToken then _ else _) s
        split
        · exact h.record seen r s
        · trivial
    · trivial
  refine (hpassed hregistration
    (Observer.recordRegistration_enters ⟨trivial, hs⟩ caller seen)).bind (fun _ _ _ => trivial)
      fun _ _ hs => ?_
  refine (hpassed (h.observes (refreshTransfer_heeds seen) (by decide) (by decide))
    (Observer.refreshTransfer_enters ⟨trivial, hs⟩ seen)).bind (fun _ _ _ => trivial)
      fun _ _ hs => ?_
  refine (hpassed (h.observes (refreshNamed_heeds seen) (by decide) (by decide))
    (Observer.refreshNamed_enters ⟨trivial, hs⟩ seen)).bind (fun _ _ _ => trivial)
      fun _ s' hs => ?_
  have hreceipt : (followReceipt caller seen).Along env.answer T (fun _ _ => True) s' := by
    unfold followReceipt
    split
    · trivial
    · refine (h.events hs seen _).bind (fun _ _ _ => trivial) fun _ _ _ => ?_
      exact h.observes (refreshDeposits_heeds _) (by decide) (by decide)
  exact (along_passOver hreceipt).bind (fun _ _ _ => trivial) fun _ _ _ => trivial

/-- What runs go along. -/
theorem launch (h : TokenWriters env caller T) (hs : Sound s) (interval rounds : Nat)
    (start : Option Nat) :
    (launch ⟨interval, Observer.standard caller⟩ start rounds).Along env.answer T
      (fun _ _ => True) s :=
  (launch_anatomy env interval caller start rounds).along
    (fun request s houter _ => h.other request s
      (fun htarget => nomatch Request.target?_of_isOuter houter htarget)
      fun htarget => nomatch Request.target?_of_isOuter houter htarget)
    (fun op _ _ => Program.Obeys.along (recordOperation_heeds op)
      (fun request s hplaces => h.other request s
        (fun htarget => nomatch Request.target?_of_places hplaces htarget)
        fun htarget => nomatch Request.target?_of_places hplaces htarget) trivial)
    (fun seen _ hs => h.applyAll hs seen) hs

end TokenWriters

end ChainIndex.Scan
