import ChainIndex.Proofs.DerivedRows
import ChainIndex.Proofs.StoreCalls
import Mathlib.Logic.Function.Basic

/-!
# What refreshers remember of assets

Refreshers of balances share a store, and each of them remembers assets. The store keeps the first
record of an asset for ever. A refresher remembers the stored record if it finds one, but where it
does not, it remembers every asset of the node's list as the list has it, also those that are stored
already. So what it remembers, and scales by, is the stored record or one that the node has listed;
it is the stored one as long as the lists of the node agree with the store.
-/

namespace ChainIndex

/-! ## Runs with a log -/

namespace Program

variable {I : Interface} {ε α σ : Type}

/-- The side that answers like another one and keeps a log of the calls. -/
def logged (answer : Answering I σ) : Answering I (σ × List (Call I)) := fun request x =>
  ((answer request x.1).1, (answer request x.1).2, x.2 ++ [⟨request, (answer request x.1).1⟩])

/-- What is added to a log is what the other side has replied. -/
theorem of_mem_moments_logged {answer : Answering I σ} {p : Program I ε α}
    {x y : σ × List (Call I)} (hy : y ∈ p.moments (logged answer) x) {call : Call I}
    (hcall : call ∈ y.2) : call ∈ x.2 ∨ ∃ s, call.reply = (answer call.request s).1 := by
  induction p generalizing x with
  | done a => cases hy
  | fail e => cases hy
  | ask request next ih =>
    have hfirst : ∀ call ∈ (logged answer request x).2.2,
        call ∈ x.2 ∨ ∃ s, call.reply = (answer call.request s).1 := by
      intro call hmem
      refine (List.mem_append.1 hmem).imp_right fun hnew => ?_
      rw [List.mem_singleton.1 hnew]
      exact ⟨x.1, rfl⟩
    rcases List.mem_cons.1 hy with rfl | hy
    · exact hfirst call hcall
    · exact (ih _ hy).elim (hfirst call) .inr

end Program

/-- Assets that are found go on to be found as they are. -/
theorem Store.Memory.Retains.asset {m m' : Store.Memory} (h : m.Retains m') {id : String}
    {asset : AssetRecord} (hasset : m.asset? id = some asset) : m'.asset? id = some asset := by
  obtain ⟨added, hadded⟩ := h.assets
  rw [asset?, ← hadded, List.find?_append]
  exact Option.or_eq_some_iff.2 (.inl hasset)

namespace Scan

open Observer (knownAsset registerAssets refreshBalance listedAtOnce places)
open Store (Memory)

/-! ## Refreshers on one store -/

/-- What refreshers have asked so far, and the replies that they got. -/
abbrev Log := List (Program.Call interface)

/-- Some refreshers and their store. Each of them is one of the observers of a scanner. -/
structure Refreshers (ω : Type) where
  world : ω
  memory : Memory
  caches : Nat → Cache

/-- What can come of refreshers that have just started on some store. They are called one after the
other, and a call may break off at any moment; meanwhile others use the store as they like, and
scanners are started anew. -/
inductive Refreshing {ω : Type} (env : Surroundings ω) : Log → Refreshers ω → Prop where
  | start (world : ω) (memory : Memory) :
      Refreshing env [] ⟨world, memory, fun _ => Cache.empty⟩
  | refresh {past : Log} {r : Refreshers ω} {s : Situation ω} {log : Log} (k : Nat)
      (owner : Refresher) (address asset : String) (before : Refreshing env past r)
      (moment : (s, log) ∈ (refreshBalance owner address asset).moments
        (Program.logged env.answer) (⟨r.world, r.memory, r.caches k⟩, past)) :
      Refreshing env log ⟨s.world, s.memory, Function.update r.caches k s.cache⟩
  | others {past : Log} {r : Refreshers ω} (world : ω) (calls : List Store.Call)
      (before : Refreshing env past r) :
      Refreshing env past ⟨world, r.memory.afterAll calls, r.caches⟩
  | restart {past : Log} {r : Refreshers ω} (k : Nat) (before : Refreshing env past r) :
      Refreshing env past { r with caches := Function.update r.caches k Cache.empty }

/-! ## What is known of assets -/

/-- The node has given this answer. -/
def Told (past : Log) (request : Node.Request) (v : request.Result) : Prop :=
  (⟨Request.node request, .ok v⟩ : Program.Call interface) ∈ past

/-- The node has listed an asset with this record. -/
def ListedAs (past : Log) (record : AssetRecord) : Prop :=
  ∃ assets, Told past (.assets 0 listedAtOnce) assets ∧
    ∃ asset ∈ assets, asset.record = .ok record

/-- A refresher has written a balance. -/
def Written (past : Log) (b : BalanceRecord) : Prop :=
  (⟨Request.store (.putBalance b), .ok ()⟩ : Program.Call interface) ∈ past

/-- A record is one of an asset that is stored: the stored one, or one that the node has listed. -/
def Known (past : Log) (m : Memory) (id : String) (record : AssetRecord) : Prop :=
  record.id = id ∧
    ∃ stored, m.asset? id = some stored ∧ (record = stored ∨ ListedAs past record)

/-- A balance is what the node has told of it, scaled by a record that is known. -/
def Scaled (past : Log) (m : Memory) (b : BalanceRecord) : Prop :=
  ∃ record balances, Known past m b.asset record ∧ Told past (.balances b.owner) balances ∧
    b.amount = Amount.scale ((balances.lookup b.asset).getD 0) (places record.precision)

section

variable {past later : Log} {m m' : Memory}

theorem ListedAs.mono {record : AssetRecord} (h : ListedAs past record) (hpast : past ⊆ later) :
    ListedAs later record := by
  obtain ⟨assets, htold, hlisted⟩ := h
  exact ⟨assets, hpast htold, hlisted⟩

theorem Known.mono {id : String} {record : AssetRecord} (h : Known past m id record)
    (hpast : past ⊆ later) (hm : m.Retains m') : Known later m' id record := by
  obtain ⟨hid, stored, hstored, horigin⟩ := h
  exact ⟨hid, stored, hm.asset hstored, horigin.imp_right (ListedAs.mono · hpast)⟩

theorem Scaled.mono {b : BalanceRecord} (h : Scaled past m b) (hpast : past ⊆ later)
    (hm : m.Retains m') : Scaled later m' b := by
  obtain ⟨record, balances, hknown, htold, hamount⟩ := h
  exact ⟨record, balances, hknown.mono hpast hm, hpast htold, hamount⟩

end

/-- Whatever is remembered is known, and whatever was written was scaled by what is known. -/
structure Accounted (past : Log) (m : Memory) (caches : Nat → Cache) : Prop where
  remembered : ∀ k owner id record, ((caches k).assetsOf owner).lookup id = some record →
    Known past m id record
  written : ∀ b, Written past b → Scaled past m b

theorem Accounted.mono {past : Log} {m m' : Memory} {caches : Nat → Cache}
    (h : Accounted past m caches) (hm : m.Retains m') : Accounted past m' caches where
  remembered k owner id record hfound :=
    (h.remembered k owner id record hfound).mono (List.Subset.refl _) hm
  written b hb := (h.written b hb).mono (List.Subset.refl _) hm

/-! ## One request -/

section

variable {ω : Type} {env : Surroundings ω} {caches : Nat → Cache} {k : Nat}

/-- What stands in the store and has been asked when a refresher is at work. -/
abbrev Logged (ω : Type) := Situation ω × Log

/-- All is accounted for while the refresher `k` is at work. -/
abbrev AccountedAt (caches : Nat → Cache) (k : Nat) (x : Logged ω) : Prop :=
  Accounted x.2 x.1.memory (Function.update caches k x.1.cache)

/-- What has to be known where a request is made. -/
def Logged.Warrants (x : Logged ω) : Request → Prop
  | .cache (.keepAsset _ id record) => Known x.2 x.1.memory id record
  | .store (.putBalance b) => Scaled x.2 x.1.memory b
  | _ => True

/-- No request takes anything away from the store. -/
theorem Surroundings.answer_retains (env : Surroundings ω) (request : Request) (s : Situation ω) :
    s.memory.Retains (env.answer request s).2.memory := by
  cases request with
  | store request =>
    obtain ⟨detail, world, hfault⟩ | ⟨world, hanswer⟩ := env.answer_store_cases request s
    · rw [hfault]
      exact Memory.Retains.refl _
    · rw [hanswer]
      exact Store.Memory.answer_retains request s.memory
  | node | cache | cancelled => exact Memory.Retains.refl _

/-- The store has nothing to do with what is remembered. -/
theorem Surroundings.cache_answer_store (env : Surroundings ω) (request : Store.Request)
    (s : Situation ω) : (env.answer (.store request) s).2.cache = s.cache := by
  obtain ⟨detail, world, hanswer⟩ | ⟨world, hanswer⟩ := env.answer_store_cases request s <;>
    rw [hanswer]

/-- A request for which enough is known leaves all accounted for. -/
theorem Accounted.ask {x : Logged ω} (hx : AccountedAt caches k x) {request : Request}
    (hwarrant : x.Warrants request) :
    AccountedAt caches k (Program.logged env.answer request x).2 := by
  have hpast : x.2 ⊆ (Program.logged env.answer request x).2.2 := List.subset_append_left _ _
  have hm : x.1.memory.Retains (Program.logged env.answer request x).2.1.memory :=
    env.answer_retains request x.1
  refine ⟨fun j owner id record hfound => ?_, fun b hb => ?_⟩
  · by_cases hj : j = k
    · subst hj
      rw [Function.update_self] at hfound
      -- only keeping an asset adds to what the refresher remembers
      have hold : ((x.1.cache).assetsOf owner).lookup id = some record ∨
          request = .cache (.keepAsset owner id record) := by
        cases request with
        | cache request =>
          exact (Cache.of_lookup_assetsOf hfound).imp_right fun hkept => by rw [hkept]
        | store request =>
          have hcache : (Program.logged env.answer (.store request) x).2.1.cache = x.1.cache :=
            env.cache_answer_store request x.1
          rw [hcache] at hfound
          exact .inl hfound
        | node | cancelled => exact .inl hfound
      rcases hold with hold | rfl
      · refine (hx.remembered j owner id record ?_).mono hpast hm
        rwa [Function.update_self]
      · exact Known.mono hwarrant hpast hm
    · -- the other refreshers have not been asked
      rw [Function.update_of_ne hj] at hfound
      refine (hx.remembered j owner id record ?_).mono hpast hm
      rwa [Function.update_of_ne hj]
  · rcases List.mem_append.1 hb with hold | hnew
    · exact (hx.written b hold).mono hpast hm
    · have hrequest := congrArg Program.Call.request (List.mem_singleton.1 hnew)
      subst hrequest
      exact Scaled.mono hwarrant hpast hm

/-! ## Refreshing a balance -/

/-- From a situation and a log, a procedure of the refresher `k` leaves all accounted for at each of
its moments, and its value and what there is then have `Q`. -/
abbrev Refreshes {α : Type} (env : Surroundings ω) (caches : Nat → Cache) (k : Nat)
    (p : Procedure α) (Q : α → Logged ω → Prop) (x : Logged ω) : Prop :=
  p.Ensures (Program.logged env.answer) (AccountedAt caches k)
    (fun r x' => AccountedAt caches k x' ∧ x.2 ⊆ x'.2 ∧ x.1.memory.Retains x'.1.memory ∧
      ∀ a, r = .ok a → Q a x') x

section

variable {α β : Type} {Q : α → Logged ω → Prop} {x : Logged ω}

theorem refreshes_done {a : α} (hx : AccountedAt caches k x) (hQ : Q a x) :
    Refreshes env caches k (.done a) Q x :=
  ⟨hx, List.Subset.refl _, Memory.Retains.refl _, fun _ hb => Except.ok.inj hb ▸ hQ⟩

theorem refreshes_fail {e : Error} (hx : AccountedAt caches k x) :
    Refreshes env caches k (.fail e) Q x :=
  ⟨hx, List.Subset.refl _, Memory.Retains.refl _, nofun⟩

/-- What goes on from a later moment goes on from an earlier one. -/
theorem Refreshes.since {p : Procedure α} {x' : Logged ω} (h : Refreshes env caches k p Q x')
    (hpast : x.2 ⊆ x'.2) (hm : x.1.memory.Retains x'.1.memory) :
    p.Ensures (Program.logged env.answer) (AccountedAt caches k)
      (fun r x'' => AccountedAt caches k x'' ∧ x.2 ⊆ x''.2 ∧
        x.1.memory.Retains x''.1.memory ∧ ∀ a, r = .ok a → Q a x'') x' :=
  Program.Ensures.mono h (fun _ h => h) fun _ _ ⟨hx, hlog, hstore, hQ⟩ =>
    ⟨hx, List.Subset.trans hpast hlog, hm.trans hstore, hQ⟩

theorem Refreshes.bind {p : Procedure β} {f : β → Procedure α} {Q' : β → Logged ω → Prop}
    (h : Refreshes env caches k p Q' x)
    (hf : ∀ b x', AccountedAt caches k x' → x.2 ⊆ x'.2 → x.1.memory.Retains x'.1.memory →
      Q' b x' → Refreshes env caches k (f b) Q x') :
    Refreshes env caches k (p.bind f) Q x := by
  refine Program.ensures_bind.2 (Program.Ensures.mono h (fun _ h => h) ?_)
  rintro r x' ⟨hx, hlog, hstore, hQ⟩
  cases r with
  | error e => exact ⟨hx, hlog, hstore, nofun⟩
  | ok b => exact (hf b x' hx hlog hstore (hQ b rfl)).since hlog hstore

/-- A request, and what follows its reply. -/
theorem refreshes_ask {request : Request} {next : request.Reply → Procedure α}
    (hx : AccountedAt caches k x) (hwarrant : x.Warrants request)
    (hnext : AccountedAt caches k (Program.logged env.answer request x).2 →
      Refreshes env caches k (next (env.answer request x.1).1) Q
        (Program.logged env.answer request x).2) :
    Refreshes env caches k (.ask (request : interface.Request) next) Q x := by
  have hasked : AccountedAt caches k (Program.logged env.answer request x).2 :=
    hx.ask hwarrant
  exact ⟨hasked, (hnext hasked).since (List.subset_append_left _ _)
    (env.answer_retains request x.1)⟩

/-- A request to the store, and what follows if it is answered. -/
theorem refreshes_store {request : Store.Request} {f : request.Result → Procedure α}
    (hx : AccountedAt caches k x) (hwarrant : x.Warrants (.store request))
    (hf : ∀ v x', AccountedAt caches k x' → x.2 ⊆ x'.2 → x.1.memory.Retains x'.1.memory →
      Memory.answer request x.1.memory = (.ok v, x'.1.memory) →
      Refreshes env caches k (f v) Q x') :
    Refreshes env caches k ((store request).bind f) Q x := by
  refine refreshes_ask hx hwarrant fun hasked => ?_
  cases hreply : (env.answer (.store request) x.1).1 with
  | error e => exact refreshes_fail hasked
  | ok v =>
    obtain ⟨hanswer, hmemory⟩ := env.answer_of_ok hreply
    exact hf v _ hasked (List.subset_append_left _ _) (env.answer_retains (.store request) x.1)
      (Prod.ext hanswer hmemory.symm)

/-- A question to the node, and what follows if it is answered. -/
theorem refreshes_node {request : Node.Request} {f : request.Result → Procedure α}
    (hx : AccountedAt caches k x)
    (hf : ∀ v x', AccountedAt caches k x' → Told x'.2 request v →
      Refreshes env caches k (f v) Q x') :
    Refreshes env caches k ((node request).bind f) Q x := by
  refine refreshes_ask hx trivial fun hasked => ?_
  cases hreply : (env.answer (.node request) x.1).1 with
  | error e => exact refreshes_fail hasked
  | ok v =>
    refine hf v _ hasked (List.mem_append_right _ ?_)
    rw [hreply]
    exact List.mem_singleton.2 rfl

theorem refreshes_cache {request : Cache.Request} {f : request.Result → Procedure α}
    (hx : AccountedAt caches k x) (hwarrant : x.Warrants (.cache request))
    (hf : ∀ x', AccountedAt caches k x' → x.2 ⊆ x'.2 → x.1.memory.Retains x'.1.memory →
      Refreshes env caches k (f (Cache.answer request x.1.cache).1) Q x') :
    Refreshes env caches k ((cache request).bind f) Q x :=
  refreshes_ask hx hwarrant fun hasked =>
    hf _ hasked (List.subset_append_left _ _) (env.answer_retains (.cache request) x.1)

/-- A record that is found is known. -/
abbrev FoundKnown (id : String) (found : Option AssetRecord) (x : Logged ω) : Prop :=
  ∀ record, found = some record → Known x.2 x.1.memory id record

/-- All that the node has listed is known once it is stored. -/
theorem registerAssets_refreshes (hx : AccountedAt caches k x) (owner : Refresher)
    (wanted : String) {assets : List Asset}
    (hlisted : ∀ asset ∈ assets, ∀ record, asset.record = .ok record → ListedAs x.2 record)
    {found : Option AssetRecord} (hfound : FoundKnown wanted found x) :
    Refreshes env caches k (registerAssets owner wanted assets found) (FoundKnown wanted) x := by
  -- along the list; each step adds to the log and the store, so what was known stays known
  induction assets generalizing x found with
  | nil => exact refreshes_done hx hfound
  | cons asset rest ih =>
    unfold registerAssets
    cases hrecord : asset.record with
    | error e => exact refreshes_fail hx
    | ok record =>
      have hrecorded : ListedAs x.2 record := hlisted asset List.mem_cons_self record hrecord
      -- once the asset is stored, in whatever form, it is remembered as it was listed
      have hkeep : ∀ {x' : Logged ω}, AccountedAt caches k x' → x.2 ⊆ x'.2 →
          x.1.memory.Retains x'.1.memory → (x'.1.memory.asset? record.id).isSome →
          Refreshes env caches k ((cache (.keepAsset owner record.id record)).bind fun _ =>
            registerAssets owner wanted rest (if record.id = wanted then some record else found))
            (FoundKnown wanted) x' := by
        intro x' hx' hlog hstore hthere
        obtain ⟨stored, hstored⟩ := Option.isSome_iff_exists.1 hthere
        have hknown : Known x'.2 x'.1.memory record.id record :=
          ⟨rfl, stored, hstored, .inr (hrecorded.mono hlog)⟩
        refine refreshes_cache hx' hknown fun x'' hx'' hlog' hstore' => ?_
        have hall := List.Subset.trans hlog hlog'
        refine ih hx'' (fun a ha r hr => (hlisted a (List.mem_cons_of_mem _ ha) r hr).mono hall)
          fun other hother => ?_
        split at hother
        · rename_i hid
          cases hother
          exact hid ▸ hknown.mono hlog' hstore'
        · exact (hfound other hother).mono hall (hstore.trans hstore')
      refine refreshes_store hx trivial fun known x' hx' hlog hstore hread => ?_
      cases known with
      | some known =>
        have hknown : x.1.memory.asset? record.id = some known :=
          Except.ok.inj (congrArg Prod.fst hread)
        exact hkeep hx' hlog hstore (Option.isSome_iff_exists.2 ⟨known, hstore.asset hknown⟩)
      | none =>
        refine refreshes_store hx' trivial fun _ x'' hx'' hlog' hstore' hadd => ?_
        refine hkeep hx'' (List.Subset.trans hlog hlog') (hstore.trans hstore') ?_
        have hadded : x'.1.memory.addAsset record = x''.1.memory := congrArg Prod.snd hadd
        rw [← hadded]
        exact asset?_addAsset _ record

theorem knownAsset_refreshes (hx : AccountedAt caches k x) (owner : Refresher) (id : String) :
    Refreshes env caches k (knownAsset owner id) (FoundKnown id) x := by
  unfold knownAsset
  refine refreshes_cache hx trivial fun x' hx' hlog hstore => ?_
  simp only [Cache.answer]
  cases hremembered : (x.1.cache.assetsOf owner).lookup id with
  | some asset =>
    refine refreshes_done hx' fun record hrecord => ?_
    cases hrecord
    refine (hx.remembered k owner id asset ?_).mono hlog hstore
    rwa [Function.update_self]
  | none =>
    refine refreshes_store hx' trivial fun stored x'' hx'' _ hstore' hread => ?_
    cases stored with
    | some asset =>
      have hstored : x'.1.memory.asset? id = some asset :=
        Except.ok.inj (congrArg Prod.fst hread)
      have hid : (asset.id == id) = true :=
        List.find?_some (p := fun a : AssetRecord => a.id == id) hstored
      have hknown : Known x''.2 x''.1.memory id asset :=
        ⟨beq_iff_eq.1 hid, asset, hstore'.asset hstored, .inl rfl⟩
      refine refreshes_cache hx'' hknown fun x₃ hx₃ hlog₃ hstore₃ => ?_
      refine refreshes_done hx₃ fun record hrecord => ?_
      cases hrecord
      exact hknown.mono hlog₃ hstore₃
    | none =>
      refine refreshes_node hx'' fun listed x₃ hx₃ htold => ?_
      exact registerAssets_refreshes hx₃ owner id
        (fun asset hasset record hrecord => ⟨listed, htold, asset, hasset, hrecord⟩)
        fun record hrecord => by cases hrecord

theorem refreshBalance_refreshes (hx : AccountedAt caches k x) (owner : Refresher)
    (address asset : String) :
    Refreshes env caches k (refreshBalance owner address asset) (fun _ _ => True) x := by
  refine refreshes_node hx fun balances x' hx' htold => ?_
  refine (knownAsset_refreshes hx' owner asset).bind fun found x'' hx'' hlog _ hfound => ?_
  cases found with
  | none => exact refreshes_fail hx''
  | some record =>
    have hscaled : Scaled x''.2 x''.1.memory ⟨address, asset,
        Amount.scale ((balances.lookup asset).getD 0) (places record.precision)⟩ :=
      ⟨record, balances, hfound record rfl, hlog htold, rfl⟩
    show Refreshes env caches k (store (.putBalance _)) _ _
    rw [← Program.bind_done (store _)]
    exact refreshes_store hx'' hscaled fun _ x₃ hx₃ _ _ _ => refreshes_done hx₃ trivial

end

/-! ## Any number of calls -/

/-- The node has told what it is said to have told. -/
theorem Refreshing.told {past : Log} {r : Refreshers ω} (h : Refreshing env past r)
    {request : Node.Request} {v : request.Result} (hv : Told past request v) :
    ∃ world, (env.node request world).1 = .ok v := by
  induction h with
  | start world memory => cases hv
  | refresh k owner address asset _ moment ih =>
    rcases Program.of_mem_moments_logged moment hv with hold | ⟨s, hreply⟩
    · exact ih hold
    · exact ⟨s.world, hreply.symm⟩
  | others world calls _ ih => exact ih hv
  | restart k _ ih => exact ih hv

/-- Whatever comes of refreshers, all is accounted for. -/
theorem Refreshing.accounted {past : Log} {r : Refreshers ω} (h : Refreshing env past r) :
    Accounted past r.memory r.caches := by
  induction h with
  | start world memory =>
    refine ⟨fun k owner id record hfound => ?_, nofun⟩
    cases owner <;> cases hfound
  | @refresh past r s log k owner address asset _ moment ih =>
    have hx : AccountedAt r.caches k (⟨r.world, r.memory, r.caches k⟩, past) := by
      rwa [AccountedAt, Function.update_eq_self]
    have hcall : Refreshes env r.caches k (refreshBalance owner address asset)
        (fun _ _ => True) (⟨r.world, r.memory, r.caches k⟩, past) :=
      refreshBalance_refreshes hx owner address asset
    exact (Program.ensures_iff.1 hcall).1 (s, log) moment
  | others world calls _ ih => exact ih.mono (Store.Memory.afterAll_retains _ calls)
  | @restart past r k _ ih =>
    refine ⟨fun j owner id record hfound => ?_, ih.written⟩
    have hfound : ((Function.update r.caches k Cache.empty j).assetsOf owner).lookup id =
        some record := hfound
    -- the one that starts anew remembers nothing
    by_cases hj : j = k
    · subst hj
      rw [Function.update_self] at hfound
      cases owner <;> cases hfound
    · rw [Function.update_of_ne hj] at hfound
      exact ih.remembered j owner id record hfound

/-- Whatever the node lists, whoever else uses the store, and wherever calls break off: each balance
that a refresher has written is what the node has told of it, scaled by a record of its asset that
is stored or that the node has listed, and so is each record that a refresher remembers. Of an asset
that the node has never listed otherwise than it is stored, refreshers remember the stored record,
and they have scaled its balances by the stored precision. -/
theorem refreshers_go_by_stored_or_listed_assets {past : Log} {r : Refreshers ω}
    (h : Refreshing env past r) :
    (∀ b, Written past b → Scaled past r.memory b) ∧
      (∀ k owner id record, ((r.caches k).assetsOf owner).lookup id = some record →
        Known past r.memory id record) ∧
      ∀ id, (∀ record stored, ListedAs past record → record.id = id →
          r.memory.asset? id = some stored → record = stored) →
        (∀ k owner record, ((r.caches k).assetsOf owner).lookup id = some record →
          r.memory.asset? id = some record) ∧
        ∀ b, Written past b → b.asset = id → ∃ stored balances,
          r.memory.asset? id = some stored ∧ Told past (.balances b.owner) balances ∧
          b.amount = Amount.scale ((balances.lookup id).getD 0) (places stored.precision) := by
  have haccounted := h.accounted
  refine ⟨haccounted.written, haccounted.remembered, fun id hagree => ?_⟩
  have hstored : ∀ {record}, Known past r.memory id record →
      r.memory.asset? id = some record := by
    rintro record ⟨hid, stored, hstored, rfl | hlisted⟩
    · exact hstored
    · rw [hagree record stored hlisted hid hstored]
      exact hstored
  refine ⟨fun k owner record hfound => hstored (haccounted.remembered k owner id record hfound),
    fun b hb hid => ?_⟩
  subst hid
  obtain ⟨record, balances, hknown, htold, hamount⟩ := haccounted.written b hb
  exact ⟨record, balances, hstored hknown, htold, hamount⟩

end

/-- Surroundings in which the node lists two assets, and an address holds some of the second. -/
def listing : Surroundings Unit := .steady fun
  | .block _ => .ok none
  | .receipts _ => .ok []
  | .invoke _ _ _ _ => .error (.node "closed")
  | .assets _ _ => .ok [⟨"1.3.0", "HX", 5⟩, ⟨"1.3.1", "BTC", 8⟩]
  | .balances _ => .ok [("1.3.1", 1000)]

/-- What there is after a call for a balance of the address. -/
def afterCall (asset : String) (x : Logged Unit) : Logged Unit :=
  (Program.run (Program.logged listing.answer) (refreshBalance .transfers "HXa" asset) x).2

/-- What there is after calls for the balances in both assets, if the second one is stored. -/
def afterBoth (stored : AssetRecord) : Logged Unit :=
  afterCall "1.3.1" (afterCall "1.3.0"
    (⟨(), { Memory.empty with assets := [stored] }, Cache.empty⟩, []))

/-- The second asset as it is listed. -/
def asListed : AssetRecord := ⟨"1.3.1", "BTC", 8⟩

/-- The second asset with fewer decimal places. -/
def otherwise : AssetRecord := ⟨"1.3.1", "BTC", 2⟩

/-- A call of the first refresher, from where it stands. -/
theorem refreshing_afterCall (asset : String) {x : Logged Unit} {r : Refreshers Unit}
    (h : Refreshing listing x.2 r)
    (hr : (⟨r.world, r.memory, r.caches 0⟩ : Situation Unit) = x.1) :
    ∃ r', Refreshing listing (afterCall asset x).2 r' ∧
      (⟨r'.world, r'.memory, r'.caches 0⟩ : Situation Unit) = (afterCall asset x).1 := by
  have hmoment : afterCall asset x ∈ (refreshBalance .transfers "HXa" asset).moments
      (Program.logged listing.answer) (⟨r.world, r.memory, r.caches 0⟩, x.2) := by
    rw [hr]
    exact Program.run_mem_moments
  generalize afterCall asset x = y at hmoment ⊢
  exact ⟨_, .refresh 0 .transfers "HXa" asset h hmoment, by simp only [Function.update_self]⟩

/-- The two calls one after the other. -/
theorem refreshing_afterBoth (stored : AssetRecord) :
    ∃ r, Refreshing listing (afterBoth stored).2 r ∧
      (⟨r.world, r.memory, r.caches 0⟩ : Situation Unit) = (afterBoth stored).1 := by
  have hstart : Refreshing listing [] ⟨(), { Memory.empty with assets := [stored] }, _⟩ :=
    .start () _
  obtain ⟨r, hfirst, hr⟩ := refreshing_afterCall "1.3.0"
    (x := (⟨(), { Memory.empty with assets := [stored] }, Cache.empty⟩, [])) hstart rfl
  exact refreshing_afterCall "1.3.1" hfirst hr

/-- An asset that is stored is remembered as the node lists it, and the balance that is written next
is not scaled by the stored precision. -/
theorem asset_remembered_otherwise_than_stored :
    ∃ past r, Refreshing listing past r ∧ r.memory.asset? "1.3.1" = some otherwise ∧
      ((r.caches 0).assetsOf .transfers).lookup "1.3.1" = some asListed ∧
      Told past (.balances "HXa") [("1.3.1", 1000)] ∧
      Written past ⟨"HXa", "1.3.1", "0.00001000"⟩ ∧
      Amount.scale 1000 (places otherwise.precision) = "10.00" := by
  obtain ⟨r, hcourse, hr⟩ := refreshing_afterBoth otherwise
  have hstored : (afterBoth otherwise).1.memory.asset? "1.3.1" = some otherwise := by
    decide +kernel
  have hremembered : ((afterBoth otherwise).1.cache.assetsOf .transfers).lookup "1.3.1" =
      some asListed := by
    decide +kernel
  rw [← hr] at hstored hremembered
  exact ⟨_, r, hcourse, hstored, hremembered, List.mem_of_getElem? (i := 10) rfl,
    List.mem_of_getElem? (i := 12) rfl, by decide +kernel⟩

theorem refreshers_go_by_assets_as_listed :
    ∃ past r, Refreshing listing past r ∧ Written past ⟨"HXa", "1.3.1", "0.00001000"⟩ ∧
      ((r.caches 0).assetsOf .transfers).lookup "1.3.1" = some asListed ∧
      r.memory.asset? "1.3.1" = some asListed ∧
      ∃ balances, Told past (.balances "HXa") balances ∧
        "0.00001000" = Amount.scale ((balances.lookup "1.3.1").getD 0)
          (places asListed.precision) := by
  obtain ⟨r, hcourse, hr⟩ := refreshing_afterBoth asListed
  have hwritten : Written (afterBoth asListed).2 ⟨"HXa", "1.3.1", "0.00001000"⟩ :=
    List.mem_of_getElem? (i := 12) rfl
  have hremembered : ((afterBoth asListed).1.cache.assetsOf .transfers).lookup "1.3.1" =
      some asListed := by
    decide +kernel
  have hfound : (afterBoth asListed).1.memory.asset? "1.3.1" = some asListed := by
    decide +kernel
  rw [← hr] at hremembered hfound
  have hagree : ∀ record stored, ListedAs (afterBoth asListed).2 record → record.id = "1.3.1" →
      r.memory.asset? "1.3.1" = some stored → record = stored := by
    rintro record stored ⟨assets, htold, asset, hasset, hrecord⟩ hid hstored
    cases hfound.symm.trans hstored
    obtain ⟨_, hassets⟩ := hcourse.told htold
    have hlist : assets = [⟨"1.3.0", "HX", 5⟩, ⟨"1.3.1", "BTC", 8⟩] :=
      (Except.ok.inj hassets).symm
    subst hlist
    simp only [List.mem_cons, List.not_mem_nil, or_false] at hasset
    rcases hasset with rfl | rfl <;> cases hrecord
    · exact absurd hid (by decide)
    · rfl
  obtain ⟨-, -, hcoherent⟩ := refreshers_go_by_stored_or_listed_assets hcourse
  obtain ⟨hstored, hscaled⟩ := hcoherent "1.3.1" hagree
  obtain ⟨stored, balances, hstored', htold, hamount⟩ := hscaled _ hwritten rfl
  cases hfound.symm.trans hstored'
  exact ⟨_, r, hcourse, hwritten, hremembered, hstored 0 .transfers asListed hremembered,
    balances, htold, hamount⟩

end Scan

end ChainIndex
