import ChainIndex.Proofs.BlockEntries

/-!
# Procedures that make entries

`Enters` says of a procedure that it makes a list of entries: at every moment of its run a store has
some of them, in their order, and at the end all of them, if it ends well. In calm surroundings the
procedure fails where the list does, and with the same error. The laws below follow the ways in
which procedures are put together.

An observer may fail without consequence. For such a procedure, whose manner is lenient, a failure
that is not the store's finds all of its entries made. A firm procedure fails only with the store.
-/

namespace ChainIndex

open Store (Memory)

/-- Whether a question is about the present, so that its answer may change at any time. -/
def Node.Request.isLive : Node.Request → Bool
  | .invoke _ _ _ _ | .assets _ _ | .balances _ => true
  | .block _ | .receipts _ => false

namespace Scan

/-- Whether a request comes up while a block is processed. The checkpoint is moved between two
blocks, and that is also when a block is asked for. -/
def Request.withinBlock : Request → Bool
  | .store (.putConfig _ _) => false
  | .node (.block _) => false
  | _ => true

theorem Request.withinBlock_of_isLive {request : Node.Request} (h : request.isLive) :
    (Request.node request).withinBlock := by
  cases request with
  | block | receipts => cases h
  | invoke | assets | balances => rfl

variable {ω : Type}

/-- Surroundings that give these receipts whenever they give any. -/
def Surroundings.Faithful (env : Surroundings ω)
    (receipts : String → Except Error (List Receipt)) : Prop :=
  ∀ transaction world received, (env.node (.receipts transaction) world).1 = .ok received →
    receipts transaction = .ok received

/-- Surroundings in which receipts are always the same, the store never fails, and whatever is asked
about the present does not fail like a store. -/
structure Surroundings.Calm (env : Surroundings ω)
    (receipts : String → Except Error (List Receipt)) : Prop where
  receipts : ∀ transaction world, (env.node (.receipts transaction) world).1 = receipts transaction
  live : ∀ request world e, request.isLive → (env.node request world).1 = .error e →
    e.isStoreFailure = false
  store : ∀ request world, (env.fault request world).1 = none

/-- Something that goes on to hold while a block is processed. -/
structure Frame (env : Surroundings ω) where
  Holds : Situation ω → Prop
  keep : ∀ (request : Request) s, request.withinBlock → Holds s →
    Holds (env.answer request s).2

/-- The frame without content. -/
def Frame.plain (env : Surroundings ω) : Frame env := ⟨fun _ => True, fun _ _ _ _ => trivial⟩

variable {env : Surroundings ω}

/-- A frame holds, and the scanner is sound. -/
structure Frame.At (Γ : Frame env) (s : Situation ω) : Prop where
  holds : Γ.Holds s
  sound : Sound s

/-- Some entries of a list lead from one store to another. -/
def Partly (es : List Entry) (m m' : Memory) : Prop :=
  ∃ made, made <+: es ∧ Entry.enterAll made m = (.ok (), m')

/-- A moment at which some entries of a list have been made. -/
structure Frame.Reached (Γ : Frame env) (es : List Entry) (m : Memory) (s : Situation ω) : Prop
    where
  now : Γ.At s
  partly : Partly es m s.memory.history

/-- How the failures of a procedure are taken. -/
inductive Manner where
  /-- Every failure counts. -/
  | strict
  /-- Only the store's failures count. -/
  | lenient
  /-- There are no other failures than the store's. -/
  | firm

/-- What it means that a procedure for a list of entries has come to its end. -/
def Outcome {α : Type} (env : Surroundings ω) (receipts : String → Except Error (List Receipt))
    (manner : Manner) (es : List Entry) (m : Memory) (post : α → Situation ω → Prop) :
    Except Error α → Situation ω → Prop
  | .ok a, s => Entry.enterAll es m = (.ok (), s.memory.history) ∧ post a s
  | .error e, s =>
    match manner with
    | .strict => env.Calm receipts → Entry.enterAll es m = (.error e, s.memory.history)
    | .lenient =>
      if e.isStoreFailure then
        env.Calm receipts → Entry.enterAll es m = (.error e, s.memory.history)
      else Entry.enterAll es m = (.ok (), s.memory.history)
    | .firm =>
      e.isStoreFailure ∧
        (env.Calm receipts → Entry.enterAll es m = (.error e, s.memory.history))

/-- From a situation, a procedure makes a list of entries. -/
structure Enters {α : Type} (Γ : Frame env) (receipts : String → Except Error (List Receipt))
    (manner : Manner) (es : List Entry) (p : Procedure α) (post : α → Situation ω → Prop)
    (s : Situation ω) : Prop where
  ensures : p.Ensures env.answer (Γ.Reached es s.memory.history)
    (fun r s' => Γ.Reached es s.memory.history s' ∧
      Outcome env receipts manner es s.memory.history post r s') s

/-! ## Parts of lists -/

/-- An entry made in the store is made in its history. -/
theorem enterAll_one_history {m m' : Memory} (hm : m.WellFormed) {entry : Entry}
    (hentry : entry.isIndexed) (h : entry.enter m = .ok m') :
    Entry.enterAll [entry] m.history = (.ok (), m'.history) :=
  Entry.enterAll_one (Entry.enter_history hm.failing hentry h)

theorem Partly.refl (es : List Entry) (m : Memory) : Partly es m m :=
  ⟨[], List.nil_prefix, rfl⟩

theorem partly_nil {m m' : Memory} (h : Partly [] m m') : m' = m := by
  obtain ⟨made, hbegins, hmade⟩ := h
  rw [List.prefix_nil.1 hbegins] at hmade
  exact (Prod.mk.inj hmade).2.symm

theorem partly_of_enterAll {es : List Entry} {m m' : Memory}
    (h : Entry.enterAll es m = (.ok (), m')) : Partly es m m' :=
  ⟨es, List.prefix_refl es, h⟩

theorem Partly.extend {es : List Entry} {m m' : Memory} (h : Partly es m m')
    (es' : List Entry) : Partly (es ++ es') m m' := by
  obtain ⟨made, hbegins, hmade⟩ := h
  exact ⟨made, hbegins.trans (List.prefix_append es es'), hmade⟩

theorem Partly.after {es es' : List Entry} {m m' m'' : Memory}
    (hfirst : Entry.enterAll es m = (.ok (), m')) (h : Partly es' m' m'') :
    Partly (es ++ es') m m'' := by
  obtain ⟨made, hbegins, hmade⟩ := h
  refine ⟨es ++ made, (List.prefix_append_right_inj es).2 hbegins, ?_⟩
  rw [Entry.enterAll_append hfirst, hmade]

section

variable {α β : Type} {Γ : Frame env} {receipts : String → Except Error (List Receipt)}
  {manner : Manner} {es es' : List Entry} {post : α → Situation ω → Prop} {m m' : Memory}
  {s s' : Situation ω}

theorem Frame.At.reached (h : Γ.At s) (es : List Entry) : Γ.Reached es s.memory.history s :=
  ⟨h, Partly.refl es _⟩

theorem Frame.Reached.extend (h : Γ.Reached es m s) (es' : List Entry) :
    Γ.Reached (es ++ es') m s :=
  ⟨h.now, h.partly.extend es'⟩

theorem Frame.Reached.after (hfirst : Entry.enterAll es m = (.ok (), m'))
    (h : Γ.Reached es' m' s) : Γ.Reached (es ++ es') m s :=
  ⟨h.now, h.partly.after hfirst⟩

theorem Outcome.after {r : Except Error α} (hfirst : Entry.enterAll es m = (.ok (), m'))
    (h : Outcome env receipts manner es' m' post r s) :
    Outcome env receipts manner (es ++ es') m post r s := by
  cases r with
  | ok a => exact ⟨by rw [Entry.enterAll_append hfirst, h.1], h.2⟩
  | error e =>
    cases manner <;> simpa only [Outcome, Entry.enterAll_append hfirst] using h

/-- What is made after some entries is made after them. -/
theorem Enters.after {p : Procedure α} (hfirst : Entry.enterAll es m = (.ok (), s.memory.history))
    (h : Enters Γ receipts manner es' p post s) :
    p.Ensures env.answer (Γ.Reached (es ++ es') m)
      (fun r s' => Γ.Reached (es ++ es') m s' ∧
        Outcome env receipts manner (es ++ es') m post r s') s :=
  h.ensures.mono (fun _ hs' => hs'.after hfirst)
    (fun _ _ hq => ⟨hq.1.after hfirst, hq.2.after hfirst⟩)

/-! ## Endings -/

theorem enters_done {a : α} (hs : Γ.At s) (hpost : post a s) :
    Enters Γ receipts manner [] (.done a) post s :=
  ⟨⟨hs.reached [], rfl, hpost⟩⟩

/-- A failure that the entries foresee. -/
theorem enters_fail {e : Error} (hs : Γ.At s)
    (h : Entry.enterAll es s.memory.history = (.error e, s.memory.history)) :
    Enters Γ receipts .strict es (.fail e : Procedure α) post s :=
  ⟨⟨hs.reached es, fun _ => h⟩⟩

/-- A failure that has no consequence. -/
theorem enters_give_up {e : Error} (hs : Γ.At s) (he : e.isStoreFailure = false)
    (h : Entry.enterAll es s.memory.history = (.ok (), s.memory.history)) :
    Enters Γ receipts .lenient es (.fail e : Procedure α) post s := by
  refine ⟨⟨hs.reached es, ?_⟩⟩
  simp only [Outcome, he]
  exact h

/-! ## Requests -/

/-- A request to the store that it answers, unless it is at fault. -/
theorem enters_store_of_holds (es : List Entry) {request : Store.Request} {v : request.Result}
    {m' : Memory} {f : request.Result → Procedure α} (hs : Γ.At s) (hproper : request.Proper)
    (hkept : Γ.Holds (env.answer (.store request) s).2)
    (hanswer : Memory.answer request s.memory = (.ok v, m'))
    (hfirst : Entry.enterAll es s.memory.history = (.ok (), m'.history))
    (hrest : ∀ world, Γ.At ⟨world, m', s.cache⟩ →
      Enters Γ receipts manner es' (f v) post ⟨world, m', s.cache⟩) :
    Enters Γ receipts manner (es ++ es') ((store request).bind f) post s := by
  constructor
  show Γ.Reached _ _ (env.answer (.store request) s).2 ∧ _
  cases hfault : env.fault request s.world with
  | mk fault world =>
    cases fault with
    | some detail =>
      rw [env.answer_of_fault hfault] at hkept ⊢
      have hs' : Γ.At { s with world } := ⟨hkept, hs.sound.withWorld world⟩
      refine ⟨hs'.reached _, hs'.reached _, ?_⟩
      -- calm surroundings have no fault
      have hcalm : ¬env.Calm receipts := by
        intro hcalm
        have hnone := hcalm.store request s.world
        rw [hfault] at hnone
        cases hnone
      cases manner <;> simp [Outcome, Error.isStoreFailure, hcalm]
    | none =>
      have hsound := hs.sound.answer hproper world
      rw [env.answer_of_no_fault hfault, hanswer] at hkept ⊢
      rw [hanswer] at hsound
      have hs' : Γ.At ⟨world, m', s.cache⟩ := ⟨hkept, hsound⟩
      exact ⟨⟨hs', (partly_of_enterAll hfirst).extend es'⟩, (hrest world hs').after hfirst⟩

theorem enters_store (es : List Entry) {request : Store.Request} {v : request.Result} {m' : Memory}
    {f : request.Result → Procedure α} (hs : Γ.At s) (hproper : request.Proper)
    (hkeep : (Request.store request).withinBlock)
    (hanswer : Memory.answer request s.memory = (.ok v, m'))
    (hfirst : Entry.enterAll es s.memory.history = (.ok (), m'.history))
    (hrest : ∀ world, Γ.At ⟨world, m', s.cache⟩ →
      Enters Γ receipts manner es' (f v) post ⟨world, m', s.cache⟩) :
    Enters Γ receipts manner (es ++ es') ((store request).bind f) post s :=
  enters_store_of_holds es hs hproper (Γ.keep (.store request) s hkeep hs.holds) hanswer hfirst
    hrest

/-- A request that the store answers without a change. -/
theorem enters_read {request : Store.Request} {v : request.Result}
    {f : request.Result → Procedure α} (hs : Γ.At s) (hproper : request.Proper)
    (hkeep : (Request.store request).withinBlock)
    (hanswer : Memory.answer request s.memory = (.ok v, s.memory))
    (hrest : ∀ world, Γ.At ⟨world, s.memory, s.cache⟩ →
      Enters Γ receipts manner es (f v) post ⟨world, s.memory, s.cache⟩) :
    Enters Γ receipts manner es ((store request).bind f) post s :=
  enters_store [] hs hproper hkeep hanswer rfl hrest

/-- A request that only the entries of a list need, at the end of a procedure. -/
theorem enters_write {request : Store.Request} {v : request.Result} {m' : Memory}
    {post : request.Result → Situation ω → Prop} (hs : Γ.At s) (hproper : request.Proper)
    (hkeep : (Request.store request).withinBlock)
    (hanswer : Memory.answer request s.memory = (.ok v, m'))
    (hentries : Entry.enterAll es s.memory.history = (.ok (), m'.history))
    (hpost : ∀ world, post v ⟨world, m', s.cache⟩) :
    Enters Γ receipts manner es (store request) post s := by
  rw [← Program.bind_done (store request), ← List.append_nil es]
  exact enters_store es hs hproper hkeep hanswer hentries fun world hs' =>
    enters_done hs' (hpost world)

/-- A request to the scanner's memory. -/
theorem enters_cache {request : Cache.Request} {f : request.Result → Procedure α} (hs : Γ.At s)
    (hsound : Sound { s with cache := (Cache.answer request s.cache).2 })
    (hrest : Γ.At { s with cache := (Cache.answer request s.cache).2 } →
      Enters Γ receipts manner es (f (Cache.answer request s.cache).1) post
        { s with cache := (Cache.answer request s.cache).2 }) :
    Enters Γ receipts manner es ((cache request).bind f) post s := by
  have hs' : Γ.At { s with cache := (Cache.answer request s.cache).2 } :=
    ⟨Γ.keep (.cache request) s rfl hs.holds, hsound⟩
  exact ⟨⟨hs'.reached es, (hrest hs').ensures⟩⟩

/-- A question about the present, in a procedure that makes no entries. -/
theorem enters_live {request : Node.Request} {f : request.Result → Procedure α}
    (hlive : request.isLive) (hs : Γ.At s)
    (hrest : ∀ v world, Γ.At { s with world } →
      Enters Γ receipts .lenient [] (f v) post { s with world }) :
    Enters Γ receipts .lenient [] ((node request).bind f) post s := by
  have hs' : Γ.At { s with world := (env.node request s.world).2 } :=
    ⟨Γ.keep (.node request) s (Request.withinBlock_of_isLive hlive) hs.holds,
      hs.sound.withWorld _⟩
  refine ⟨⟨hs'.reached [], ?_⟩⟩
  show Program.Ensures env.answer _ _
    ((Program.ofExcept (env.node request s.world).1).bind f) { s with world := _ }
  cases hreply : (env.node request s.world).1 with
  | ok v => exact (hrest v _ hs').ensures
  | error e =>
    refine ⟨hs'.reached [], ?_⟩
    by_cases he : e.isStoreFailure
    · have hcalm : ¬env.Calm receipts := by
        intro hcalm
        rw [hcalm.live request s.world e hlive hreply] at he
        cases he
      simp [Outcome, he, hcalm]
    · simp [Outcome, he]

/-! ## Sequences -/

/-- One procedure after another. Where failures have no consequence, the second makes no
entries. -/
theorem Enters.bind {p : Procedure β} {f : β → Procedure α} {between : β → Situation ω → Prop}
    (hp : Enters Γ receipts manner es p between s) (hquiet : manner = .lenient → es' = [])
    (hrest : ∀ b s', Γ.At s' → Entry.enterAll es s.memory.history = (.ok (), s'.memory.history) →
      between b s' → Enters Γ receipts manner es' (f b) post s') :
    Enters Γ receipts manner (es ++ es') (p.bind f) post s := by
  refine ⟨Program.ensures_bind.2 (hp.ensures.mono (fun _ hs' => hs'.extend es') ?_)⟩
  rintro (e | b) s' ⟨hreached, houtcome⟩
  · refine ⟨hreached.extend es', ?_⟩
    cases manner with
    | strict => exact fun hcalm => Entry.enterAll_append_of_error (houtcome hcalm)
    | lenient =>
      rw [hquiet rfl, List.append_nil]
      exact houtcome
    | firm => exact ⟨houtcome.1, fun hcalm => Entry.enterAll_append_of_error (houtcome.2 hcalm)⟩
  · exact (hrest b s' hreached.now houtcome.1 houtcome.2).after houtcome.1

/-- A procedure without entries, before one that makes some. -/
theorem Enters.before {p : Procedure β} {f : β → Procedure α} {between : β → Situation ω → Prop}
    (hp : Enters Γ receipts .strict [] p between s)
    (hrest : ∀ b s', Γ.At s' → s'.memory.history = s.memory.history → between b s' →
      Enters Γ receipts .strict es (f b) post s') :
    Enters Γ receipts .strict es (p.bind f) post s := by
  rw [← List.nil_append es]
  apply hp.bind nofun
  intro b s' hs' hhistory hb
  exact hrest b s' hs' (Prod.mk.inj hhistory).2.symm hb

/-- A procedure without entries, after one that makes some. -/
theorem Enters.andThen {p : Procedure β} {f : β → Procedure α}
    {between : β → Situation ω → Prop} (hp : Enters Γ receipts manner es p between s)
    (hrest : ∀ b s', Γ.At s' → between b s' → Enters Γ receipts manner [] (f b) post s') :
    Enters Γ receipts manner es (p.bind f) post s := by
  rw [← List.append_nil es]
  exact hp.bind (fun _ => rfl) fun b s' hs' _ hb => hrest b s' hs' hb

/-- A list of entries that cannot be made is not followed by anything. -/
theorem Enters.halt {p : Procedure β} {f : β → Procedure α} {between : β → Situation ω → Prop}
    (hp : Enters Γ receipts .strict es p between s)
    (hhalt : ∀ m', Entry.enterAll es s.memory.history ≠ (.ok (), m')) :
    Enters Γ receipts .strict es (p.bind f) post s := by
  rw [← List.append_nil es]
  exact hp.bind nofun fun b s' _ hmade _ => absurd hmade (hhalt _)

/-- More or less may be said of how things stand at the end. -/
theorem Enters.weaken {p : Procedure α} {post' : α → Situation ω → Prop}
    (hp : Enters Γ receipts manner es p post s) (hpost : ∀ a s', post a s' → post' a s') :
    Enters Γ receipts manner es p post' s := by
  refine ⟨hp.ensures.mono (fun _ => id) ?_⟩
  rintro (e | a) s' ⟨hreached, houtcome⟩
  · exact ⟨hreached, houtcome⟩
  · exact ⟨hreached, houtcome.1, hpost a s' houtcome.2⟩

/-- A procedure whose failure is handed on by what follows. -/
theorem Enters.attemptOr {p : Procedure β} {f : Except Error β → Procedure α}
    {between : β → Situation ω → Prop} (hp : Enters Γ receipts .strict es p between s)
    (hfail : ∀ e s', Γ.At s' → (f (.error e)).Ensures env.answer (fun s'' => s'' = s')
      (fun r s'' => r = .error e ∧ s'' = s') s')
    (hrest : ∀ b s', Γ.At s' → between b s' →
      Enters Γ receipts .strict [] (f (.ok b)) post s') :
    Enters Γ receipts .strict es (p.attempt.bind f) post s := by
  refine ⟨Program.ensures_bind.2 (Program.ensures_attempt.2 (hp.ensures.mono (fun _ => id) ?_))⟩
  rintro (e | b) s' ⟨hreached, houtcome⟩
  · refine (hfail e s' hreached.now).mono ?_ ?_
    · rintro s'' rfl
      exact hreached
    · rintro r s'' ⟨rfl, rfl⟩
      exact ⟨hreached, houtcome⟩
  · have hafter := (hrest b s' hreached.now houtcome.2).after houtcome.1
    rwa [List.append_nil] at hafter

/-! ## Failures without consequence -/

/-- The outcome of a procedure without entries as a value. -/
theorem Enters.attempt {p : Procedure β} {f : Except Error β → Procedure α}
    {between : β → Situation ω → Prop} (hp : Enters Γ receipts .lenient [] p between s)
    (hrest : ∀ r s', Γ.At s' → s'.memory.history = s.memory.history →
      Enters Γ receipts manner es (f r) post s') :
    Enters Γ receipts manner es (p.attempt.bind f) post s := by
  refine ⟨Program.ensures_bind.2 (Program.ensures_attempt.2 ?_)⟩
  apply hp.ensures.mono (fun _ hs' => hs'.extend es)
  rintro r s' ⟨hreached, -⟩
  have hhistory := partly_nil hreached.partly
  have hnone : Entry.enterAll [] s.memory.history = (.ok (), s'.memory.history) := by
    rw [hhistory]
    rfl
  exact (hrest r s' hreached.now hhistory).after hnone

/-- A procedure that fails only with the store may stand anywhere. -/
theorem Enters.ofFirm {p : Procedure α} (hp : Enters Γ receipts .firm es p post s) :
    Enters Γ receipts manner es p post s := by
  refine ⟨hp.ensures.mono (fun _ => id) ?_⟩
  rintro (e | a) s' ⟨hreached, houtcome⟩
  · obtain ⟨he, hcalm⟩ := houtcome
    refine ⟨hreached, ?_⟩
    cases manner with
    | strict => exact hcalm
    | lenient =>
      simp only [Outcome, he, if_true]
      exact hcalm
    | firm => exact ⟨he, hcalm⟩
  · exact ⟨hreached, houtcome⟩

/-- A procedure that fails only with the store may be followed by any other. -/
theorem Enters.bindFirm {p : Procedure β} {f : β → Procedure α}
    {between : β → Situation ω → Prop} (hp : Enters Γ receipts .firm es p between s)
    (hrest : ∀ b s', Γ.At s' → Entry.enterAll es s.memory.history = (.ok (), s'.memory.history) →
      between b s' → Enters Γ receipts manner es' (f b) post s') :
    Enters Γ receipts manner (es ++ es') (p.bind f) post s := by
  refine ⟨Program.ensures_bind.2 (hp.ensures.mono (fun _ hs' => hs'.extend es') ?_)⟩
  rintro (e | b) s' ⟨hreached, houtcome⟩
  · have hfails : env.Calm receipts →
        Entry.enterAll (es ++ es') s.memory.history = (.error e, s'.memory.history) :=
      fun hcalm => Entry.enterAll_append_of_error (houtcome.2 hcalm)
    refine ⟨hreached.extend es', ?_⟩
    cases manner with
    | strict => exact hfails
    | lenient =>
      simp only [Outcome, houtcome.1, if_true]
      exact hfails
    | firm => exact ⟨houtcome.1, hfails⟩
  · exact (hrest b s' hreached.now houtcome.1 houtcome.2).after houtcome.1

/-- A procedure without entries that fails only with the store may come before any other. -/
theorem Enters.beforeFirm {p : Procedure β} {f : β → Procedure α}
    {between : β → Situation ω → Prop} (hp : Enters Γ receipts .firm [] p between s)
    (hrest : ∀ b s', Γ.At s' → s'.memory.history = s.memory.history → between b s' →
      Enters Γ receipts manner es (f b) post s') :
    Enters Γ receipts manner es (p.bind f) post s := by
  rw [← List.nil_append es]
  apply hp.bindFirm
  intro b s' hs' hhistory hb
  exact hrest b s' hs' (Prod.mk.inj hhistory).2.symm hb

/-- Passing over the failures of a procedure leaves the entries that it makes. -/
theorem Enters.passOver {p : Procedure Unit} {post : Unit → Situation ω → Prop}
    (hp : Enters Γ receipts .lenient es p post s) :
    Enters Γ receipts manner es (Observer.passOver p) (fun _ _ => True) s := by
  refine Enters.ofFirm ⟨Program.ensures_recover.2 (hp.ensures.mono (fun _ => id) ?_)⟩
  rintro (e | a) s' ⟨hreached, houtcome⟩
  · by_cases he : e.isStoreFailure
    · simp only [Outcome, he, if_true] at houtcome
      simp only [he, if_true]
      exact ⟨hreached, he, houtcome⟩
    · simp only [Outcome, he, Bool.false_eq_true, if_false] at houtcome
      simp only [he, Bool.false_eq_true, if_false]
      exact ⟨hreached, houtcome, trivial⟩
  · exact ⟨hreached, houtcome.1, trivial⟩

/-! ## Entries that are there already -/

theorem Outcome.congr {r : Except Error α} {es₁ es₂ : List Entry}
    (h : ∀ m', Entry.enterAll es₁ m = m' ↔ Entry.enterAll es₂ m = m') :
    Outcome env receipts manner es₁ m post r s ↔ Outcome env receipts manner es₂ m post r s := by
  cases r with
  | ok a => simp only [Outcome, h]
  | error e => cases manner <;> simp only [Outcome, h]

/-- An entry that changes nothing can be left out or put in front. -/
theorem enters_skip {entry : Entry} {p : Procedure α}
    (hentry : entry.enter s.memory.history = .ok s.memory.history) :
    Enters Γ receipts manner (entry :: es) p post s ↔ Enters Γ receipts manner es p post s := by
  have hall : ∀ es', Entry.enterAll (entry :: es') s.memory.history =
      Entry.enterAll es' s.memory.history := by
    intro es'
    simp only [Entry.enterAll, hentry]
  have hpartly : ∀ m', Partly (entry :: es) s.memory.history m' ↔
      Partly es s.memory.history m' := by
    intro m'
    constructor
    · rintro ⟨made, hbegins, hmade⟩
      cases made with
      | nil => exact ⟨[], List.nil_prefix, hmade⟩
      | cons first made =>
        obtain ⟨rfl, hmore⟩ := List.cons_prefix_cons.1 hbegins
        exact ⟨made, hmore, by rwa [hall] at hmade⟩
    · rintro ⟨made, hbegins, hmade⟩
      exact ⟨entry :: made, List.cons_prefix_cons.2 ⟨rfl, hbegins⟩, by rwa [hall]⟩
  have hreached : ∀ s', Γ.Reached (entry :: es) s.memory.history s' ↔
      Γ.Reached es s.memory.history s' := by
    intro s'
    exact ⟨fun h => ⟨h.now, (hpartly _).1 h.partly⟩, fun h => ⟨h.now, (hpartly _).2 h.partly⟩⟩
  have houtcome : ∀ r s', Outcome env receipts manner (entry :: es) s.memory.history post r s' ↔
      Outcome env receipts manner es s.memory.history post r s' := by
    intro r s'
    exact Outcome.congr fun m' => by rw [hall]
  constructor
  · intro h
    exact ⟨h.ensures.mono (fun s' => (hreached s').1)
      fun r s' hq => ⟨(hreached s').1 hq.1, (houtcome r s').1 hq.2⟩⟩
  · intro h
    exact ⟨h.ensures.mono (fun s' => (hreached s').2)
      fun r s' hq => ⟨(hreached s').2 hq.1, (houtcome r s').2 hq.2⟩⟩

/-- An entry that changes nothing in the store can be put in front. -/
theorem enters_there {entry : Entry} {p : Procedure α} (hs : Γ.At s) (hentry : entry.isIndexed)
    (hthere : entry.enter s.memory = .ok s.memory) (h : Enters Γ receipts manner es p post s) :
    Enters Γ receipts manner (entry :: es) p post s := by
  have hhistory := Entry.enter_history hs.sound.memory.failing hentry hthere
  exact (enters_skip hhistory).2 h

/-- A request that makes an entry. -/
theorem enters_make {entry : Entry} {request : Store.Request} {v : request.Result}
    {f : request.Result → Procedure α} (hs : Γ.At s) (hproper : request.Proper)
    (hkeep : (Request.store request).withinBlock) (hentry : entry.isIndexed)
    (hanswer : Memory.answer request s.memory = (.ok v, m'))
    (hmade : entry.enter s.memory = .ok m')
    (hrest : ∀ world, Γ.At ⟨world, m', s.cache⟩ →
      Enters Γ receipts manner es (f v) post ⟨world, m', s.cache⟩) :
    Enters Γ receipts manner (entry :: es) ((store request).bind f) post s := by
  have hfirst : Entry.enterAll [entry] s.memory.history = (.ok (), m'.history) :=
    enterAll_one_history hs.sound.memory hentry hmade
  exact enters_store [entry] hs hproper hkeep hanswer hfirst hrest

/-! ## Runs -/

/-- A run ends where the frame still holds. -/
theorem Enters.at_end {p : Procedure α} (h : Enters Γ receipts manner es p post s) :
    Γ.At (Program.run env.answer p s).2 := by
  obtain ⟨-, hreached, -⟩ := Program.ensures_iff.1 h.ensures
  exact hreached.now

/-- A run in calm surroundings is decided by the entries and by what the store had of them. -/
theorem Enters.run {p : Procedure α} {v : α} (hcalm : env.Calm receipts)
    (h : Enters Γ receipts .strict es p (fun a _ => a = v) s) :
    (Program.run env.answer p s).1 = (Entry.enterAll es s.memory.history).1.map (fun _ => v) ∧
      (Program.run env.answer p s).2.memory.history = (Entry.enterAll es s.memory.history).2 := by
  obtain ⟨-, -, houtcome⟩ := Program.ensures_iff.1 h.ensures
  cases hr : (Program.run env.answer p s).1 with
  | ok a =>
    rw [hr] at houtcome
    obtain ⟨hmade, rfl⟩ := houtcome
    rw [hmade]
    exact ⟨rfl, rfl⟩
  | error e =>
    rw [hr] at houtcome
    rw [houtcome hcalm]
    exact ⟨rfl, rfl⟩

end

end Scan

end ChainIndex
