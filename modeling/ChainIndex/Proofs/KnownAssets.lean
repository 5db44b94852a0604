import ChainIndex.Proofs.DerivedRows
import ChainIndex.Proofs.TwoRuns

/-!
# What a refresher knows of assets

A refresher goes by the record of an asset that it remembers, or else by the stored one, or else by
the one that the node lists. Where the three agree, it does not matter when the node is asked for its
list: that changes where a record is found, but not which record it is.
-/

namespace ChainIndex.Scan

open Observer (knownAsset registerAssets listedAtOnce)
open Store (Memory)

/-- What the node answers when it is asked for its assets. -/
abbrev Listing := Except Error (List Asset)

/-- The record of an asset that is listed. -/
def Listing.record? (listing : Listing) (id : String) : Option AssetRecord :=
  match listing with
  | .ok assets => (assets.filterMap (·.record.toOption)).find? (·.id == id)
  | .error _ => none

/-- The record that a refresher goes by, or would go by once the assets were listed. -/
def knownRecord? (listing : Listing) (s : Situation Unit) (owner : Refresher) (id : String) :
    Option AssetRecord :=
  ((s.cache.assetsOf owner).lookup id).or ((s.memory.asset? id).or (listing.record? id))

/-- A list of assets agrees with what is stored and remembered: each asset on it has one record, and
wherever there is a record of the asset it is that one. -/
structure Listing.Agrees (listing : Listing) (s : Situation Unit) : Prop where
  listed : ∀ assets, listing = .ok assets → ∀ asset ∈ assets,
    ∃ record, asset.record = .ok record ∧ listing.record? record.id = some record
  stored : ∀ id record stored, listing.record? id = some record →
    s.memory.asset? id = some stored → stored = record
  remembered : ∀ owner id record known, listing.record? id = some record →
    (s.cache.assetsOf owner).lookup id = some known → known = record

/-- Where a list agreed with what is known, it still does, and the same is known; and no balance was
touched. -/
structure Settled (listing : Listing) (s s' : Situation Unit) : Prop where
  agrees : listing.Agrees s'
  known : ∀ owner id, knownRecord? listing s' owner id = knownRecord? listing s owner id
  balances : s'.memory.balances = s.memory.balances

section

variable {listing : Listing} {s s' s'' : Situation Unit} {owner : Refresher} {id : String}
  {record : AssetRecord}

theorem Listing.Agrees.settled (h : listing.Agrees s) : Settled listing s s :=
  ⟨h, fun _ _ => rfl, rfl⟩

theorem Settled.trans (h : Settled listing s s') (h' : Settled listing s' s'') :
    Settled listing s s'' :=
  ⟨h'.agrees, fun owner id => (h'.known owner id).trans (h.known owner id),
    h'.balances.trans h.balances⟩

/-- The record of a listed asset is the one that is known. -/
theorem Listing.Agrees.known (h : listing.Agrees s) (hlisted : listing.record? id = some record)
    (owner : Refresher) : knownRecord? listing s owner id = some record := by
  unfold knownRecord?
  cases hremembered : (s.cache.assetsOf owner).lookup id with
  | some known => rw [h.remembered owner id record known hlisted hremembered]; rfl
  | none =>
    cases hstored : s.memory.asset? id with
    | some stored => rw [h.stored id record stored hlisted hstored]; rfl
    | none => exact hlisted

/-! ## One step -/

/-- An asset that is added is found, if there was none with its id, and all others as before. -/
theorem asset?_addAsset_eq (m : Memory) (record : AssetRecord) (id : String) :
    (m.addAsset record).asset? id =
      (m.asset? id).or (if record.id = id then some record else none) := by
  unfold Memory.addAsset
  split
  · rename_i hany
    split
    · rename_i hid
      obtain ⟨found, hfound⟩ := Option.isSome_iff_exists.1 (List.isSome_find?.trans hany)
      rw [Memory.asset?, ← hid, hfound]
      rfl
    · rw [Option.or_none]
  · rw [Memory.asset?, List.find?_append, List.find?_singleton]
    simp only [beq_iff_eq]
    rfl

/-- An asset that is remembered is found, and what else is remembered as before. -/
theorem lookup_keepAsset (c : Cache) (owner : Refresher) (id : String) (record : AssetRecord)
    (other : Refresher) (wanted : String) :
    ((Cache.answer (.keepAsset owner id record) c).2.assetsOf other).lookup wanted =
      if other = owner ∧ wanted = id then some record else (c.assetsOf other).lookup wanted := by
  by_cases hother : other = owner
  · subst hother
    have hkept : (Cache.answer (.keepAsset other id record) c).2.assetsOf other =
        Memory.putEntry id record (c.assetsOf other) := by
      cases other <;> rfl
    rw [hkept]
    by_cases hwanted : wanted = id
    · subst hwanted
      rw [if_pos ⟨rfl, rfl⟩, Memory.lookup_putEntry_self]
    · rw [if_neg fun h => hwanted h.2, Memory.lookup_putEntry_of_ne _ _ hwanted]
  · rw [if_neg fun h => hother h.1]
    cases owner <;> cases other <;> first | rfl | exact absurd rfl hother

/-- A listed asset may be stored. -/
theorem Listing.Agrees.addAsset (h : listing.Agrees s)
    (hlisted : listing.record? record.id = some record) :
    Settled listing s { s with memory := s.memory.addAsset record } where
  agrees := by
    refine ⟨h.listed, fun id other stored hother hstored => ?_, h.remembered⟩
    rw [asset?_addAsset_eq, Option.or_eq_some_iff] at hstored
    rcases hstored with hstored | ⟨-, hstored⟩
    · exact h.stored id other stored hother hstored
    · split at hstored
      · rename_i hid
        cases hstored
        rw [← hid, hlisted] at hother
        exact Option.some.inj hother
      · cases hstored
  known owner id := by
    unfold knownRecord?
    rw [asset?_addAsset_eq]
    split
    · rename_i hid
      rw [← hid, hlisted, Option.or_assoc, Option.some_or]
    · rw [Option.or_none]
  balances := by
    show (s.memory.addAsset record).balances = _
    unfold Memory.addAsset
    split <;> rfl

/-- A record that is known may be remembered. -/
theorem Listing.Agrees.keepAsset (h : listing.Agrees s)
    (hknown : knownRecord? listing s owner id = some record) :
    Settled listing s
      { s with cache := (Cache.answer (.keepAsset owner id record) s.cache).2 } where
  agrees := by
    refine ⟨h.listed, h.stored, fun other wanted listed known hlisted hremembered => ?_⟩
    rw [lookup_keepAsset] at hremembered
    split at hremembered
    · rename_i hsame
      obtain ⟨rfl, rfl⟩ := hsame
      cases hremembered
      exact Option.some.inj (hknown.symm.trans (h.known hlisted other))
    · exact h.remembered other wanted listed known hlisted hremembered
  known other wanted := by
    unfold knownRecord?
    rw [lookup_keepAsset]
    split
    · rename_i hsame
      obtain ⟨rfl, rfl⟩ := hsame
      exact hknown.symm
    · rfl
  balances := rfl

variable {answers : Answers}

/-! ## Looking an asset up -/

section

variable {α : Type}

theorem run_store_bind {request : Store.Request} {v : request.Result}
    {f : request.Result → Procedure α} (h : (Memory.answer request s.memory).1 = .ok v) :
    Program.run (Surroundings.steady answers).answer ((store request).bind f) s =
      Program.run (Surroundings.steady answers).answer (f v)
        { s with memory := (Memory.answer request s.memory).2 } := by
  have hreply : (Surroundings.steady answers).answer (.store request) s =
      (.ok v, { s with memory := (Memory.answer request s.memory).2 }) := Prod.ext h rfl
  rw [Program.run_bind, Surroundings.run_store, hreply]

theorem run_asset_bind {found : Option AssetRecord} {f : Option AssetRecord → Procedure α}
    (h : s.memory.asset? id = found) :
    Program.run (Surroundings.steady answers).answer ((store (.asset id)).bind f) s =
      Program.run (Surroundings.steady answers).answer (f found) s :=
  run_store_bind (congrArg Except.ok h)

theorem run_remembered_bind {found : Option AssetRecord} {f : Option AssetRecord → Procedure α}
    (h : (s.cache.assetsOf owner).lookup id = found) :
    Program.run (Surroundings.steady answers).answer ((cache (.asset owner id)).bind f) s =
      Program.run (Surroundings.steady answers).answer (f found) s := by
  subst h
  rfl

theorem run_node_bind {request : Node.Request} {reply : Except Error request.Result}
    {f : request.Result → Procedure α} (h : answers request = reply) :
    Program.run (Surroundings.steady answers).answer ((node request).bind f) s =
      Program.run (Surroundings.steady answers).answer ((Program.ofExcept reply).bind f) s := by
  subst h
  rfl

end

/-- Along the list all assets are stored and remembered, and the wanted one is found if it is on
it. -/
theorem registerAssets_settles (h : listing.Agrees s) (owner : Refresher) (wanted : String)
    {assets : List Asset}
    (hlisted : ∀ asset ∈ assets,
      ∃ record, asset.record = .ok record ∧ listing.record? record.id = some record)
    (found : Option AssetRecord) :
    ∃ s' found', Program.run (Surroundings.steady answers).answer
        (registerAssets owner wanted assets found) s = (.ok found', s') ∧
      Settled listing s s' ∧
      (found' = listing.record? wanted ∨ found' = found ∧
        ∀ asset ∈ assets, ∀ record, asset.record = .ok record → record.id ≠ wanted) := by
  induction assets generalizing s found with
  | nil =>
    exact ⟨s, found, rfl, h.settled, .inr ⟨rfl, fun asset hasset => absurd hasset List.not_mem_nil⟩⟩
  | cons asset rest ih =>
    simp only [List.forall_mem_cons] at hlisted
    obtain ⟨⟨record, hrecord, hrecorded⟩, hrest⟩ := hlisted
    -- the asset is stored by now, is remembered next, and then the rest follows
    have hkeep : ∀ {s₁}, Settled listing s s₁ → ∃ s' found',
        Program.run (Surroundings.steady answers).answer
          ((cache (.keepAsset owner record.id record)).bind fun _ =>
            registerAssets owner wanted rest (if record.id = wanted then some record else found))
          s₁ = (.ok found', s') ∧ Settled listing s s' ∧
        (found' = listing.record? wanted ∨ found' = found ∧
          ∀ other ∈ asset :: rest, ∀ record, other.record = .ok record → record.id ≠ wanted) := by
      intro s₁ h₁
      have hkept := h₁.agrees.keepAsset (h₁.agrees.known hrecorded owner)
      obtain ⟨s', found', hrun, hsettled, hfound⟩ := ih hkept.agrees hrest
        (if record.id = wanted then some record else found)
      refine ⟨s', found', hrun, (h₁.trans hkept).trans hsettled, ?_⟩
      rcases hfound with hfound | ⟨hfound, hnone⟩
      · exact .inl hfound
      · by_cases hid : record.id = wanted
        · rw [if_pos hid] at hfound
          exact .inl (by rw [hfound, ← hid, hrecorded])
        · rw [if_neg hid] at hfound
          refine .inr ⟨hfound, List.forall_mem_cons.2 ⟨fun other hother => ?_, hnone⟩⟩
          cases hrecord.symm.trans hother
          exact hid
    unfold registerAssets
    rw [hrecord]
    cases hstored : s.memory.asset? record.id with
    | some stored =>
      obtain ⟨s', found', hrun, hend⟩ := hkeep h.settled
      exact ⟨s', found', (run_asset_bind hstored).trans hrun, hend⟩
    | none =>
      obtain ⟨s', found', hrun, hend⟩ := hkeep (h.addAsset hrecorded)
      exact ⟨s', found', (run_asset_bind hstored).trans
        ((run_store_bind (v := ()) rfl).trans hrun), hend⟩

/-- What comes of looking an asset up, if this record of it is known. -/
def lookedUp (listing : Listing) (known : Option AssetRecord) :
    Except Error (Option AssetRecord) :=
  match known with
  | some record => .ok (some record)
  | none => listing.map fun _ => none

/-- A refresher finds the record that is known, and knows the same afterwards. -/
theorem knownAsset_settles (hlisting : answers (.assets 0 listedAtOnce) = listing)
    (h : listing.Agrees s) (owner : Refresher) (id : String) :
    ∃ s', Program.run (Surroundings.steady answers).answer (knownAsset owner id) s =
        (lookedUp listing (knownRecord? listing s owner id), s') ∧
      Settled listing s s' := by
  unfold knownAsset
  cases hremembered : (s.cache.assetsOf owner).lookup id with
  | some record =>
    have hknown : knownRecord? listing s owner id = some record := by
      rw [knownRecord?, hremembered, Option.some_or]
    rw [hknown]
    exact ⟨s, run_remembered_bind hremembered, h.settled⟩
  | none =>
    cases hstored : s.memory.asset? id with
    | some record =>
      have hknown : knownRecord? listing s owner id = some record := by
        rw [knownRecord?, hremembered, hstored, Option.none_or, Option.some_or]
      refine ⟨_, (run_remembered_bind hremembered).trans ((run_asset_bind hstored).trans ?_),
        h.keepAsset hknown⟩
      rw [hknown]
      rfl
    | none =>
      have hknown : knownRecord? listing s owner id = listing.record? id := by
        rw [knownRecord?, hremembered, hstored, Option.none_or, Option.none_or]
      rw [hknown]
      have hasked : ∀ {r}, Program.run (Surroundings.steady answers).answer
            ((Program.ofExcept listing).bind fun listed => registerAssets owner id listed none) s =
          r → Program.run (Surroundings.steady answers).answer (knownAsset owner id) s = r :=
        fun hrest => (run_remembered_bind hremembered).trans
          ((run_asset_bind hstored).trans ((run_node_bind hlisting).trans hrest))
      cases listing with
      | error e => exact ⟨s, hasked rfl, h.settled⟩
      | ok assets =>
        obtain ⟨s', found, hrun, hsettled, hfound⟩ :=
          registerAssets_settles h owner id (h.listed assets rfl) none
        refine ⟨s', hasked (hrun.trans ?_), hsettled⟩
        rcases hfound with rfl | ⟨rfl, hnone⟩
        · cases Listing.record? (.ok assets) id <;> rfl
        · -- no asset of the list has the id
          have hunlisted : Listing.record? (.ok assets) id = none := by
            refine List.find?_eq_none.2 fun record hrecord => ?_
            obtain ⟨asset, hasset, hconverted⟩ := List.mem_filterMap.1 hrecord
            simpa using hnone asset hasset record (Entry.ok_of_toOption hconverted)
          rw [hunlisted]
          rfl

end

end ChainIndex.Scan
