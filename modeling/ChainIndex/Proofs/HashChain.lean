import ChainIndex.Proofs.CheckpointSoundness
import ChainIndex.Proofs.Stages
import ChainIndex.Proofs.StoreFailures
import ChainIndex.Proofs.Unfolding
import Mathlib.Data.List.Chain

/-!
# The chain of block ids

A block reports the id of the block before it, never its own. So the id of a stored block is set one
block later, by a write of its own, and a run may be cut short between the two writes. What is
stored still links each block to the next one: an id is empty, or it is what the next block reports,
which is stored then; and an id that was set is never changed.
-/

namespace ChainIndex.Scan

open Program (Obeys)
open Store (Memory)

variable {ω : Type} {blocks : Nat → Block}

/-! ## Stored blocks -/

/-- Every stored block is still there as it was, but for an id that it did not have yet. -/
def KeepsBlocks (m m' : Memory) : Prop :=
  ∀ number r, m.block? number = some r →
    ∃ r', m'.block? number = some r' ∧ { r' with id := r.id } = r ∧ (r.id ≠ "" → r'.id = r.id)

theorem KeepsBlocks.refl (m : Memory) : KeepsBlocks m m :=
  fun _ r hr => ⟨r, hr, rfl, fun _ => rfl⟩

theorem KeepsBlocks.trans {m m' m'' : Memory} (h : KeepsBlocks m m') (h' : KeepsBlocks m' m'') :
    KeepsBlocks m m'' := by
  intro number r hr
  obtain ⟨r', hr', hsame, hid⟩ := h number r hr
  obtain ⟨r'', hr'', hsame', hid'⟩ := h' number r' hr'
  refine ⟨r'', hr'', ?_, fun hne => ?_⟩
  · rw [← hsame, ← hsame']
  · rw [← hid hne]
    exact hid' (by rwa [hid hne])

/-- What is stored of the blocks is what the node gives, and every id that is set is the one that the
next block reports, which is stored. -/
structure Chained (blocks : Nat → Block) (m : Memory) : Prop where
  previous : ∀ (n : Nat) r, m.block? n = some r → r.previous = (blocks n).previous
  next : ∀ (n : Nat) r, m.block? n = some r → r.id ≠ "" →
    r.id = (blocks (n + 1)).previous ∧ (m.block? (n + 1 : Nat)).isSome

/-- Blocks are stored up to a number, and the one before that number has the id that the last one
reports. -/
structure Confirmed (blocks : Nat → Block) (n : Nat) (m : Memory) : Prop where
  stored : ∀ k, 1 ≤ k → k ≤ n → (m.block? k).isSome
  linked : 1 < n → (blocks n).previous ≠ "" →
    ∃ r, m.block? (n - 1 : Nat) = some r ∧ r.id = (blocks n).previous

theorem Confirmed.keep {n : Nat} {m m' : Memory} (h : Confirmed blocks n m)
    (hkeeps : KeepsBlocks m m') : Confirmed blocks n m' := by
  refine ⟨fun k hpos hk => ?_, fun hfirst hprevious => ?_⟩
  · obtain ⟨r, hr⟩ := Option.isSome_iff_exists.1 (h.stored k hpos hk)
    obtain ⟨r', hr', -⟩ := hkeeps _ r hr
    exact Option.isSome_of_eq_some hr'
  · obtain ⟨r, hr, hid⟩ := h.linked hfirst hprevious
    obtain ⟨r', hr', -, hsame⟩ := hkeeps _ r hr
    exact ⟨r', hr', (hsame (by rwa [hid])).trans hid⟩

/-- An id that is set is the one that the next stored block reports. -/
theorem Chained.id_eq {n : Nat} {m : Memory} {r : BlockRecord} (h : Chained blocks m)
    (hr : m.block? n = some r) :
    r.id = "" ∨ ∃ next, m.block? (n + 1 : Nat) = some next ∧ r.id = next.previous := by
  by_cases hid : r.id = ""
  · exact .inl hid
  · obtain ⟨hsame, hstored⟩ := h.next n r hr hid
    obtain ⟨next, hnext⟩ := Option.isSome_iff_exists.1 hstored
    exact .inr ⟨next, hnext, hsame.trans (h.previous (n + 1) next hnext).symm⟩

/-- Once the next block is confirmed, a block has the id that the next one reports. -/
theorem Chained.id_of_confirmed {n : Nat} {m : Memory} (h : Chained blocks m)
    (hnext : Confirmed blocks (n + 1) m) (hn : 1 ≤ n) :
    ∃ r next, m.block? n = some r ∧ m.block? (n + 1 : Nat) = some next ∧
      next.previous = (blocks (n + 1)).previous ∧ (next.previous ≠ "" → r.id = next.previous) := by
  obtain ⟨r, hr⟩ := Option.isSome_iff_exists.1 (hnext.stored n hn (Nat.le_succ n))
  obtain ⟨next, hfound⟩ :=
    Option.isSome_iff_exists.1 (hnext.stored (n + 1) (Nat.le_add_left 1 n) (Nat.le_refl _))
  have hprevious := h.previous (n + 1) next hfound
  refine ⟨r, next, hr, hfound, hprevious, fun hne => ?_⟩
  obtain ⟨r', hr', hid⟩ := hnext.linked (Nat.lt_succ_of_le hn) (hprevious ▸ hne)
  obtain rfl : r = r' := Option.some.inj (hr.symm.trans hr')
  exact hid.trans hprevious.symm

theorem chained_empty (blocks : Nat → Block) : Chained blocks Memory.empty where
  previous _ _ hr := by cases hr
  next _ _ hr := by cases hr

/-- One situation is followed by another in which the blocks are chained and none is lost. -/
def Passes (blocks : Nat → Block) (s s' : Situation ω) : Prop :=
  Chained blocks s'.memory ∧ KeepsBlocks s.memory s'.memory

theorem passes_of_same {s s' : Situation ω} (hs : Chained blocks s.memory)
    (h : s'.memory.blocks = s.memory.blocks) : Passes blocks s s' := by
  have hsame : ∀ number, s'.memory.block? number = s.memory.block? number := by
    intro number
    unfold Memory.block?
    rw [h]
  refine ⟨⟨fun n r hr => hs.previous n r (hsame n ▸ hr), fun n r hr hid => ?_⟩, fun number r hr => ?_⟩
  · rw [hsame]
    exact hs.next n r (hsame n ▸ hr) hid
  · exact ⟨r, (hsame number).trans hr, rfl, fun _ => rfl⟩

/-! ## Writes to blocks -/

/-- The record of a block says what the block reports, and has no id yet. -/
theorem asked_record {n : Nat} {record : BlockRecord}
    (h : (asked (blocks n) n).record = .ok record) :
    record.number = n ∧ record.previous = (blocks n).previous ∧ record.id = "" := by
  refine ⟨(Entry.block_record h).1, ?_⟩
  obtain ⟨number, -, h⟩ := Entry.of_bind h
  obtain ⟨fee, -, h⟩ := Entry.of_bind h
  obtain ⟨count, -, h⟩ := Entry.of_bind h
  cases h
  exact ⟨rfl, rfl⟩

/-- A new block has no id yet, so that it is chained to whatever comes next. -/
theorem addBlock_chained {n : Nat} {record : BlockRecord} {m m' : Memory}
    (hm : Chained blocks m) (hrecord : (asked (blocks n) n).record = .ok record)
    (hadd : m.addBlock record = .ok m') : Chained blocks m' ∧ KeepsBlocks m m' := by
  obtain ⟨hnumber, hprevious, hid⟩ := asked_record hrecord
  obtain ⟨hfree, hfind⟩ := Store.Memory.block?_of_addBlock hadd
  have hgrows := (Store.Memory.addBlock_retains hadd).grows.block
  rw [hnumber] at hfree hfind
  have hother : ∀ (k : Int) r, m'.block? k = some r → r = record ∧ k = n ∨ m.block? k = some r := by
    intro k r hr
    rw [hfind] at hr
    split at hr
    · exact .inl ⟨(Option.some.inj hr).symm, ‹_›⟩
    · exact .inr hr
  refine ⟨⟨fun k r hr => ?_, fun k r hr hne => ?_⟩, fun k r hr => ⟨r, ?_, rfl, fun _ => rfl⟩⟩
  · rcases hother k r hr with ⟨rfl, hk⟩ | hold
    · rw [hprevious, Int.ofNat.inj hk]
    · exact hm.previous k r hold
  · rcases hother k r hr with ⟨rfl, -⟩ | hold
    · exact absurd hid hne
    · exact ⟨(hm.next k r hold hne).1, hgrows _ (hm.next k r hold hne).2⟩
  · have hne : k ≠ n := by
      rintro rfl
      rw [hfree] at hr
      cases hr
    rw [hfind, if_neg hne, hr]

/-- The id that a block reports is set for the block before it, where it is the only one that can
have been set before. -/
theorem setBlockId_chained {n : Nat} {m : Memory} (hm : Chained blocks m) (hn : 1 < n)
    (hstored : (m.block? n).isSome) :
    Chained blocks (m.setBlockId (n - 1 : Nat) (blocks n).previous) ∧
      KeepsBlocks m (m.setBlockId (n - 1 : Nat) (blocks n).previous) := by
  have hnext : n - 1 + 1 = n := by omega
  have hgrows : ∀ k : Int, (m.block? k).isSome → _ :=
    (Store.Memory.setBlockId_retains (n - 1 : Nat) (blocks n).previous).grows.block
  have hfind := fun k : Int => Store.Memory.block?_setBlockId m (n - 1 : Nat) k (blocks n).previous
  refine ⟨⟨fun k r hr => ?_, fun k r hr hne => ?_⟩, fun k r hr => ?_⟩
  · rw [hfind] at hr
    split at hr
    · rename_i hk
      obtain ⟨old, hold, rfl⟩ := Option.map_eq_some_iff.1 hr
      rw [Int.ofNat.inj hk]
      exact hm.previous _ old hold
    · exact hm.previous k r hr
  · rw [hfind] at hr
    split at hr
    · rename_i hk
      obtain ⟨old, -, rfl⟩ := Option.map_eq_some_iff.1 hr
      rw [Int.ofNat.inj hk, hnext]
      exact ⟨rfl, hgrows _ hstored⟩
    · exact ⟨(hm.next k r hr hne).1, hgrows _ (hm.next k r hr hne).2⟩
  · rw [hfind]
    split
    · rename_i hk
      subst hk
      rw [hr]
      refine ⟨{ r with id := (blocks n).previous }, rfl, rfl, fun hne => ?_⟩
      rw [(hm.next _ r hr hne).1, hnext]
    · exact ⟨r, hr, rfl, fun _ => rfl⟩

/-! ## What is asked of blocks -/

section

variable {interval : Nat} {caller : String}

/-- A block is stored as its record. -/
theorem recordBlock_writes (b : Block) :
    Heeds (fun request => request.target? = some .blocks →
      ∃ record, b.record = .ok record ∧ request = .store (.addBlock record)) (recordBlock b) := by
  unfold recordBlock
  cases b.record with
  | error e => exact .fail e
  | ok record =>
    refine heeds_store nofun ?_
    intro found
    cases found with
    | some found => exact .done _
    | none => exact heeds_store (fun _ => ⟨record, rfl, rfl⟩) fun _ => .done _

/-- The id that a block reports is set for the block before it. -/
theorem recordPreviousId_writes (b : Block) :
    Heeds (fun request => request.target? = some .blocks →
      1 < b.number ∧ request = .store (.setBlockId (b.number - 1 : Nat) b.previous))
        (recordPreviousId b) := by
  unfold recordPreviousId
  split
  · exact .done _
  rename_i hfirst
  cases hnumber : Quantity.blockNumber.int64 (b.number - 1 : Nat) with
  | error e => exact .fail e
  | ok number =>
    obtain ⟨rfl, -⟩ := Entry.int64_ok hnumber
    refine heeds_store nofun ?_
    intro found
    cases found with
    | none => exact .done _
    | some previous =>
      show Heeds _ (if previous.id = "" then _ else _)
      split
      · exact store_heeds fun _ => ⟨by omega, rfl⟩
      · exact .done _

theorem Request.target?_of_handles {request : Request} (h : request.Handles) :
    request.target? ≠ some .blocks := by
  intro htarget
  rcases h with ⟨table, h⟩ | h
  · exact nomatch Request.target?_of_places h htarget
  · exact absurd (Request.target?_of_observes h htarget) (by decide)

theorem Request.target?_of_files {kind : Filed} (hkind : kind ≠ .blocks) {request : Request}
    (h : request.files kind) : request.target? ≠ some .blocks := by
  intro htarget
  cases request with
  | store request =>
    cases kind with
    | blocks => exact absurd rfl hkind
    | transactions | receipts => cases request <;> cases htarget <;> cases h
  | node | cache | cancelled => cases htarget

/-- Transactions are processed without a write to blocks. -/
theorem indexTransactions_writes (b : Block) (txs : List Transaction) :
    Heeds (fun request => request.target? ≠ some .blocks)
      (indexTransactions ⟨interval, Observer.standard caller⟩ b txs) := by
  induction txs with
  | nil => exact .done _
  | cons tx rest ih =>
    refine Obeys.bind (Obeys.bind (neededReceipts_heeds nofun) fun received => ?_) fun _ => ih
    refine Obeys.bind ((recordTransaction_files tx).widen
      fun _ => Request.target?_of_files (by decide)) fun _ => ?_
    refine Obeys.bind ((indexOperations_handles interval caller b tx received 0
      tx.operations).widen fun _ => Request.target?_of_handles) fun _ => ?_
    exact Obeys.bind ((recordReceipts_files received).widen
      fun _ => Request.target?_of_files (by decide)) fun _ => .done _

theorem Request.target?_of_isSettling {request : Request} (h : request.isSettling) :
    request.target? ≠ some .blocks := by
  intro htarget
  cases request with
  | store request => cases request <;> cases htarget <;> cases h
  | node | cache | cancelled => cases htarget

end

/-! ## One block -/

section

variable {env : Surroundings ω} {interval : Nat} {caller : String} {s s' : Situation ω} {n : Nat}

/-- A request whose write is chained if it reaches the store passes from the situation before to the
one after. -/
theorem passes_of_answer {request : Store.Request} (hs : Chained blocks s.memory)
    (h : Chained blocks (Memory.answer request s.memory).2 ∧
      KeepsBlocks s.memory (Memory.answer request s.memory).2) :
    Passes blocks s (env.answer (.store request) s).2 := by
  obtain ⟨detail, world, hstore⟩ | ⟨world, hstore⟩ := env.answer_store_cases request s
  · rw [hstore]
    exact passes_of_same hs rfl
  · rw [hstore]
    exact h

/-- What passes along loses no block. -/
theorem keepsBlocks_of_along {α : Type} {p : Procedure α} {Q : Except Error α → Situation ω → Prop}
    (h : p.Along env.answer (Passes blocks) Q s) :
    KeepsBlocks s.memory (Program.run env.answer p s).2.memory := by
  induction p generalizing s with
  | done a => exact .refl _
  | fail e => exact .refl _
  | ask request next ih => exact h.1.2.trans (ih _ h.2)

/-- Blocks are chained, and those up to a number are stored. -/
structure ChainedTo (blocks : Nat → Block) (n : Nat) (s : Situation ω) : Prop where
  chained : Chained blocks s.memory
  stored : ∀ k, 1 ≤ k → k ≤ n → (s.memory.block? k).isSome

/-- A procedure passes along if its writes to blocks do. -/
theorem passes_along {α : Type} {writes : Request → Prop} {p : Procedure α}
    (hp : Heeds (fun request => request.target? = some .blocks → writes request) p)
    (hwrites : ∀ request s, writes request → ChainedTo blocks n s →
      Passes blocks s (env.answer request s).2) (hs : ChainedTo blocks n s) :
    p.Along env.answer (Passes blocks) (fun _ s' => ChainedTo blocks n s') s := by
  refine Obeys.along_keeping (M := ChainedTo blocks n) hp (fun request s hallowed hs => ?_) hs
  have hpasses : Passes blocks s (env.answer request s).2 := by
    by_cases htarget : request.target? = some .blocks
    · exact hwrites request s (hallowed htarget) hs
    · exact passes_of_same hs.chained (env.answer_same htarget s)
  exact ⟨hpasses, hpasses.1, fun k hpos hk =>
    (env.answer_grows request s).block k (hs.stored k hpos hk)⟩

/-- So does one that has none. -/
theorem passes_along_of_none {α : Type} {allows : Request → Prop} {p : Procedure α}
    (hp : Heeds allows p) (hnone : ∀ request, allows request → request.target? ≠ some .blocks)
    (hs : ChainedTo blocks n s) :
    p.Along env.answer (Passes blocks) (fun _ s' => ChainedTo blocks n s') s :=
  passes_along (hp.widen hnone) (fun _ _ hfalse => hfalse.elim) hs

theorem recordBlock_passes (hs : ChainedTo blocks (n - 1) s) (hsound : Sound s) :
    (recordBlock (asked (blocks n) n)).Along env.answer (Passes blocks)
      (fun r s' => ∀ isNew, r = .ok isNew → ChainedTo blocks n s') s := by
  have halong : (recordBlock (asked (blocks n) n)).Along env.answer (Passes blocks)
      (fun _ s' => ChainedTo blocks (n - 1) s') s := by
    refine passes_along (recordBlock_writes (asked (blocks n) n)) ?_ hs
    rintro _ s ⟨record, hrecord, rfl⟩ hs
    apply passes_of_answer hs.chained
    exact Store.Memory.written_keeps
      (P := fun m => Chained blocks m ∧ KeepsBlocks s.memory m) ⟨hs.chained, .refl _⟩
      fun _ hadd => addBlock_chained hs.chained hrecord hadd
  have hkeeps : Keeps (Frame.plain env) (recordBlock (asked (blocks n) n)) _ s :=
    (recordBlock_enters ⟨trivial, hsound⟩ (asked (blocks n) n)).keeps
  obtain ⟨hstages, hend⟩ := Program.along_iff.1 halong
  refine Program.along_iff.2 ⟨hstages, fun isNew hok => ⟨hend.chained, fun k hpos hk => ?_⟩⟩
  rcases Nat.lt_or_eq_of_le hk with hless | rfl
  · exact hend.stored k hpos (by omega)
  · exact ((Program.ensures_iff.1 hkeeps).2.2 isNew hok).2

/-- Once a block is stored, the id that it reports is set for the block before it. -/
theorem recordPreviousId_passes (hs : ChainedTo blocks n s) (hn : 1 ≤ n) :
    (recordPreviousId (asked (blocks n) n)).Along env.answer (Passes blocks)
      (fun _ s' => ChainedTo blocks n s') s := by
  refine passes_along (recordPreviousId_writes (asked (blocks n) n)) ?_ hs
  rintro _ s ⟨hfirst, rfl⟩ hs
  apply passes_of_answer hs.chained
  exact setBlockId_chained hs.chained hfirst (hs.stored n hn (Nat.le_refl n))

/-- When that ends well, the block before has the id. -/
theorem recordPreviousId_links (hs : ChainedTo blocks n s)
    (h : Program.run env.answer (recordPreviousId (asked (blocks n) n)) s = (.ok (), s'))
    (hfirst : 1 < n) (hprevious : (blocks n).previous ≠ "") :
    ∃ r, s'.memory.block? (n - 1 : Nat) = some r ∧ r.id = (blocks n).previous := by
  have hnext : n - 1 + 1 = n := by omega
  have hguard : ¬((asked (blocks n) n).number ≤ 1 ∨ (asked (blocks n) n).previous = "") :=
    not_or.2 ⟨Nat.not_le.2 hfirst, hprevious⟩
  unfold recordPreviousId at h
  rw [if_neg hguard] at h
  obtain ⟨number, s₁, hnumber, h⟩ := Program.of_run_bind h
  obtain ⟨hint, rfl⟩ := Program.of_run_ofExcept hnumber
  obtain rfl : number = (n - 1 : Nat) := (Entry.int64_ok hint).1
  obtain ⟨found, s₂, hread, h⟩ := Program.of_run_bind h
  rw [env.run_store] at hread
  obtain ⟨hfound, hsame⟩ := env.answer_of_ok (congrArg Prod.fst hread)
  rw [hread] at hsame
  obtain ⟨r, hr⟩ := Option.isSome_iff_exists.1 (hs.stored (n - 1) (by omega) (by omega))
  obtain rfl : found = some r := (Except.ok.inj hfound).symm.trans hr
  have hthere : s₂.memory.block? (n - 1 : Nat) = some r := by
    rw [← hr]
    exact congrArg (·.block? (n - 1 : Nat)) hsame
  simp only at h
  by_cases hid : r.id = ""
  · rw [if_pos hid, env.run_store] at h
    obtain ⟨-, hset⟩ := env.answer_of_ok (congrArg Prod.fst h)
    rw [h] at hset
    have hmemory : s'.memory = s₂.memory.setBlockId (n - 1 : Nat) (blocks n).previous := hset
    refine ⟨{ r with id := (blocks n).previous }, ?_, rfl⟩
    rw [hmemory, Store.Memory.block?_setBlockId, if_pos rfl, hthere]
    rfl
  · rw [if_neg hid] at h
    cases h
    refine ⟨r, hthere, ?_⟩
    rw [(hs.chained.next (n - 1) r hr hid).1, hnext]

/-- A block is processed with its blocks chained; when that ends well, the block before has its
id. -/
theorem indexBlock_passes (hs : ChainedTo blocks (n - 1) s) (hsound : Sound s) (hn : 1 ≤ n) :
    (indexBlock ⟨interval, Observer.standard caller⟩ (asked (blocks n) n)).Along env.answer
      (Passes blocks) (fun r s' => r = .ok () → Confirmed blocks n s'.memory) s := by
  refine (recordBlock_passes hs hsound).bind (fun _ _ _ => nofun) fun isNew s₁ hblock => ?_
  have hs₁ := hblock isNew rfl
  have hprevious : (recordPreviousId (asked (blocks n) n)).Along env.answer (Passes blocks)
      (fun r s₂ => ChainedTo blocks n s₂ ∧ (r = .ok () → Confirmed blocks n s₂.memory)) s₁ := by
    obtain ⟨hstages, hend⟩ := Program.along_iff.1 (recordPreviousId_passes hs₁ hn)
    exact Program.along_iff.2 ⟨hstages, hend, fun hok =>
      ⟨hend.stored, recordPreviousId_links hs₁ (Prod.ext hok rfl)⟩⟩
  refine hprevious.bind (fun _ _ _ => nofun) fun _ s₂ ⟨hs₂, hconfirmed⟩ => ?_
  have hrest : (indexTransactions ⟨interval, Observer.standard caller⟩ (asked (blocks n) n)
      (asked (blocks n) n).transactions).Along env.answer (Passes blocks)
      (fun _ s' => ChainedTo blocks n s') s₂ :=
    passes_along_of_none (indexTransactions_writes _ _) (fun _ => id) hs₂
  refine Program.along_iff.2 ⟨(Program.along_iff.1 hrest).1, fun _ => ?_⟩
  exact (hconfirmed rfl).keep (keepsBlocks_of_along hrest)

/-- A visit to a block that lies behind stored ones. -/
theorem visit_passes (hfixed : env.FixedBlocks blocks) (hs : ChainedTo blocks (n - 1) s)
    (hsound : Sound s) (hn : 1 ≤ n) :
    (visit ⟨interval, Observer.standard caller⟩ n).Along env.answer (Passes blocks)
      (fun r s' => r = .ok .processed → Confirmed blocks n s'.memory) s := by
  unfold visit
  refine ⟨passes_of_same hs.chained rfl, ?_⟩
  show Program.Along env.answer _ _ (if env.cancelled s.world then _ else _) s
  split
  · exact nofun
  refine ⟨passes_of_same hs.chained rfl, ?_⟩
  show Program.Along env.answer _ _
    (((Program.ofExcept (env.node (.block n) s.world).1).attempt).bind _)
    { s with world := (env.node (.block n) s.world).2 }
  cases hreply : (env.node (.block n) s.world).1 with
  | error e => exact nofun
  | ok found =>
    cases found with
    | none => exact nofun
    | some b =>
      obtain rfl := hfixed n s.world b hreply
      show Program.Along env.answer _ _ ((Program.attempt (indexBlock _ _)).bind _) _
      have hs' : ChainedTo blocks (n - 1)
        { s with world := (env.node (.block n) s.world).2 } := ⟨hs.chained, hs.stored⟩
      refine Program.along_bind.2 (Program.along_attempt.2
        ((indexBlock_passes hs' (hsound.withWorld _) hn).mono fun r s' hr => ?_))
      cases r with
      | error e => exact nofun
      | ok _ => exact fun _ => hr rfl

end

/-! ## Trails -/

/-- A way from one thing over others to the last of them, each step of which has a relation. -/
inductive Trail {α : Type} (R : α → α → Prop) : α → List α → α → Prop where
  | nil (a : α) : Trail R a [] a
  | cons {a b c : α} {l : List α} (hstep : R a b) (hrest : Trail R b l c) : Trail R a (b :: l) c

theorem Trail.append {α : Type} {R : α → α → Prop} {a b c : α} {l l' : List α} (h : Trail R a l b)
    (h' : Trail R b l' c) : Trail R a (l ++ l') c := by
  induction h with
  | nil a => exact h'
  | cons hstep _ ih => exact .cons hstep (ih h')

theorem Trail.isChain {α : Type} {R : α → α → Prop} {a b : α} {l : List α} (h : Trail R a l b) :
    (a :: l).IsChain R := by
  induction h with
  | nil a => exact .singleton a
  | cons hstep _ ih => exact .cons_cons hstep ih

/-- The moments of a run that goes along lead to where it ends. -/
theorem trail_of_along {α σ : Type} {answer : Program.Answering interface σ} {T : σ → σ → Prop}
    {Q : Except Error α → σ → Prop} {p : Procedure α} {s : σ}
    (h : Program.Along answer T Q p s) :
    Trail T s (Program.moments answer p s) (Program.run answer p s).2 := by
  induction p generalizing s with
  | done a => exact .nil s
  | fail e => exact .nil s
  | ask request next ih => exact .cons h.1 (ih _ h.2)

/-! ## Journals -/

/-- Blocks are chained, and every one that was processed to a good end is linked to the one before
it. -/
structure Note.Sealed (blocks : Nat → Block) (x : Note ω) : Prop where
  chained : Chained blocks x.situation.memory
  confirmed : ∀ n ∈ x.processed, Confirmed blocks n x.situation.memory

/-- One note is followed by another that is sealed and has lost no block. -/
def Note.Onward (blocks : Nat → Block) (x y : Note ω) : Prop :=
  y.Sealed blocks ∧ KeepsBlocks x.situation.memory y.situation.memory

section

variable {env : Surroundings ω} {processed : List Nat} {s s' : Situation ω} {cursor c : Nat}
  {x x' z : Note ω} {notes notes' : List (Note ω)}

/-- As long as nothing is noted, what passes along leads from note to note. -/
theorem Note.Sealed.trail {l : List (Situation ω)} (h : Note.Sealed blocks ⟨processed, s⟩)
    (htrail : Trail (Passes blocks) s l s') :
    Trail (Note.Onward blocks) ⟨processed, s⟩ (l.map (Note.mk processed)) ⟨processed, s'⟩ ∧
      Note.Sealed blocks ⟨processed, s'⟩ := by
  induction htrail with
  | nil s => exact ⟨.nil _, h⟩
  | @cons s s₁ _ _ hstep _ ih =>
    have hnext : Note.Sealed blocks ⟨processed, s₁⟩ :=
      ⟨hstep.1, fun n hn => (h.confirmed n hn).keep hstep.2⟩
    obtain ⟨hrest, hend⟩ := ih hnext
    exact ⟨.cons ⟨hnext, hstep.2⟩ hrest, hend⟩

/-- A trail goes on from where it ends, whatever is noted there. -/
theorem Trail.resume (h : Trail (Note.Onward blocks) x notes z)
    (hsame : x'.situation = z.situation) (h' : ∃ z', Trail (Note.Onward blocks) x' notes' z') :
    ∃ z', Trail (Note.Onward blocks) x (notes ++ notes') z' := by
  obtain ⟨z', h'⟩ := h'
  cases h' with
  | nil => exact ⟨z, h.append (.nil z)⟩
  | cons hstep hrest => exact ⟨z', h.append (.cons ⟨hstep.1, hsame ▸ hstep.2⟩ hrest)⟩

/-- A block is noted when it was processed to a good end. -/
theorem Note.Sealed.noted (h : Note.Sealed blocks ⟨processed, s⟩) {v : Visit}
    (hv : v = .processed → Confirmed blocks cursor s.memory) :
    Note.Sealed blocks ⟨v.noted cursor processed, s⟩ := by
  by_cases hprocessed : v = .processed
  · subst hprocessed
    refine ⟨h.chained, fun n hn => ?_⟩
    rcases List.mem_cons.1 hn with rfl | hn
    · exact hv rfl
    · exact h.confirmed n hn
  · rw [Visit.noted_of_ne hprocessed]
    exact h

theorem Note.Ready.chainedTo (h : Note.Ready ⟨processed, s⟩ cursor c)
    (hs : Chained blocks s.memory) : ChainedTo blocks (cursor - 1) s :=
  ⟨hs, fun k hpos hk => (h.covers k hpos hk).2⟩

/-- A scan that is at a block goes onward from note to note. -/
theorem journal_trail (hfixed : env.FixedBlocks blocks) (interval : Nat) (caller : String)
    (rounds : Nat) (h : Note.Ready ⟨processed, s⟩ cursor c)
    (hsealed : Note.Sealed blocks ⟨processed, s⟩) :
    ∃ z, Trail (Note.Onward blocks) ⟨processed, s⟩
      (journal env ⟨interval, Observer.standard caller⟩ rounds cursor processed s) z := by
  induction rounds generalizing cursor processed s c with
  | zero => exact ⟨_, .nil _⟩
  | succ rounds ih =>
    have hpos : 1 ≤ cursor := Nat.lt_of_le_of_lt (Nat.zero_le c) h.below
    have hvisit : (visit ⟨interval, Observer.standard caller⟩ cursor).Along env.answer
        (Passes blocks) (fun r s' => r = .ok .processed → Confirmed blocks cursor s'.memory) s :=
      visit_passes hfixed (h.chainedTo hsealed.chained) h.backs.sound hpos
    obtain ⟨-, hready, hvisited⟩ :=
      Program.ensures_iff.1 (visit_keeps (fun _ h _ => h) h.at interval caller cursor)
    obtain ⟨hfirst, hsealed₁⟩ := hsealed.trail (trail_of_along hvisit)
    have hconfirmed := (Program.along_iff.1 hvisit).2
    unfold journal Procedure.run
    cases hrun : Program.run env.answer (visit ⟨interval, Observer.standard caller⟩ cursor) s with
    | mk visited s₁ =>
      rw [hrun] at hfirst hsealed₁ hready hvisited hconfirmed
      cases visited with
      | error e => exact ⟨_, hfirst.append (.nil _)⟩
      | ok v =>
        have hsealed₁ : Note.Sealed blocks ⟨v.noted cursor processed, s₁⟩ :=
          hsealed₁.noted fun hv => hconfirmed (congrArg Except.ok hv)
        have hready₁ := h.keep hready
        obtain ⟨c', -, hend⟩ := settle_climbs env ⟨interval, Observer.standard caller⟩ hready₁
          (hvisited v rfl)
        have hsettle : (settle ⟨interval, Observer.standard caller⟩ cursor v).Along env.answer
            (Passes blocks) (fun _ s' => ChainedTo blocks (cursor - 1) s') s₁ :=
          passes_along_of_none (settle_heeds _ cursor v) (fun _ => Request.target?_of_isSettling)
            (hready₁.chainedTo hsealed₁.chained)
        obtain ⟨hsecond, hsealed₂⟩ := hsealed₁.trail (trail_of_along hsettle)
        -- from here on the block is noted
        have hsame : (⟨v.noted cursor processed, s₁⟩ : Note ω).situation = s₁ := rfl
        refine hfirst.resume hsame ?_
        dsimp only
        cases hsettled : Program.run env.answer
            (settle ⟨interval, Observer.standard caller⟩ cursor v) s₁ with
        | mk settled s₂ =>
          rw [hsettled] at hsecond hsealed₂
          cases settled with
          | error e => exact ⟨_, hsecond.append (.nil _)⟩
          | ok position =>
            cases position with
            | stopped last => exact ⟨_, hsecond.append (.nil _)⟩
            | scanning cursor' => exact hsecond.resume rfl (ih (hend cursor' s₂ hsettled) hsealed₂)

theorem launchJournal_trail (hfixed : env.FixedBlocks blocks) (interval : Nat) (caller : String)
    (rounds : Nat) (h : Note.Backs ⟨processed, s⟩ c)
    (hsealed : Note.Sealed blocks ⟨processed, s⟩) :
    ∃ z, Trail (Note.Onward blocks) ⟨processed, s⟩
      (launchJournal env ⟨interval, Observer.standard caller⟩ rounds processed s) z := by
  have hstart : (Checkpoint.start none).Along env.answer (Passes blocks)
      (fun _ s' => ChainedTo blocks c s') s :=
    passes_along_of_none (start_heeds none) (fun _ => Request.target?_of_isSettling)
      ⟨hsealed.chained, fun k hpos hk => (h.covers k hpos hk).2⟩
  obtain ⟨hfirst, hsealed'⟩ := hsealed.trail (trail_of_along hstart)
  unfold launchJournal Procedure.run
  cases hrun : Program.run env.answer (Checkpoint.start none) s with
  | mk started s' =>
    rw [hrun] at hfirst hsealed'
    cases started with
    | error e => exact ⟨_, hfirst.append (.nil _)⟩
    | ok cursor =>
      exact hfirst.resume rfl (journal_trail hfixed interval caller rounds (h.ready hrun) hsealed')

/-- What follows a sealed note is sealed. -/
theorem sealed_of_isChain (h : (x :: notes).IsChain (Note.Onward blocks)) (hx : x.Sealed blocks) :
    ∀ y ∈ x :: notes, y.Sealed blocks := by
  induction notes generalizing x with
  | nil =>
    intro y hy
    rwa [List.mem_singleton.1 hy]
  | cons z notes ih =>
    obtain ⟨hstep, hrest⟩ := List.isChain_cons_cons.1 h
    intro y hy
    rcases List.mem_cons.1 hy with rfl | hy
    · exact hx
    · exact ih hrest hstep.1 y hy

/-- The life of a store goes onward from note to note. -/
theorem Life.onward (hfixed : env.FixedBlocks blocks) (h : Life env notes) :
    notes.IsChain (Note.Onward blocks) ∧ ∀ y ∈ notes, y.Sealed blocks := by
  induction h with
  | empty world =>
    refine ⟨.singleton _, fun y hy => ?_⟩
    rw [List.mem_singleton.1 hy]
    exact ⟨chained_empty blocks, nofun⟩
  | @run notes more last world interval rounds caller before hlast cut ih =>
    obtain ⟨hchain, hsealed⟩ := ih
    obtain ⟨c, hclimbs⟩ := before.climbs
    -- the run begins with what the runs before it have left
    have hend := hsealed last (List.mem_of_getLast? hlast)
    have hnew : Note.Sealed blocks ⟨last.processed, ⟨world, last.situation.memory, Cache.empty⟩⟩ :=
      ⟨hend.chained, hend.confirmed⟩
    obtain ⟨z, htrail⟩ := launchJournal_trail hfixed interval caller rounds
      ((hclimbs.last hlast).restart world) hnew
    have hrun : (_ :: more).IsChain (Note.Onward blocks) :=
      List.IsChain.prefix htrail.isChain ((List.prefix_cons_inj _).2 cut)
    refine ⟨List.isChain_append.2 ⟨hchain, hrun, ?_⟩, fun y hy => ?_⟩
    · intro x hx y hy
      obtain rfl : last = x := Option.some.inj (hlast.symm.trans hx)
      obtain rfl := Option.some.inj hy
      exact ⟨hnew, .refl _⟩
    · rcases List.mem_append.1 hy with hy | hy
      · exact hsealed y hy
      · exact sealed_of_isChain hrun hnew y hy

end

/-- Through all runs on a store that was empty at first, at every moment, the id of a stored block is
empty or what the next block reports, which is stored; when the next block has been processed to a
good end and reports an id, the block has it. A stored block stays as it is, but for an id that it
does not have yet. -/
theorem blocks_form_hash_chain {env : Surroundings ω} (hfixed : env.FixedBlocks blocks)
    {notes : List (Note ω)} (h : Life env notes) :
    (∀ x ∈ notes, ∀ n : Nat, 1 ≤ n →
      (∀ r, x.situation.memory.block? n = some r → r.id = "" ∨
        ∃ next, x.situation.memory.block? (n + 1 : Nat) = some next ∧ r.id = next.previous) ∧
      (n + 1 ∈ x.processed → ∃ r next, x.situation.memory.block? n = some r ∧
        x.situation.memory.block? (n + 1 : Nat) = some next ∧
          next.previous = (blocks (n + 1)).previous ∧
            (next.previous ≠ "" → r.id = next.previous))) ∧
    notes.Pairwise fun x y => ∀ number r, x.situation.memory.block? number = some r →
      ∃ r', y.situation.memory.block? number = some r' ∧ { r' with id := r.id } = r ∧
        (r.id ≠ "" → r'.id = r.id) := by
  obtain ⟨hchain, hsealed⟩ := h.onward hfixed
  refine ⟨fun x hx n hn => ⟨fun r hr => (hsealed x hx).chained.id_eq hr, fun hprocessed => ?_⟩, ?_⟩
  · exact (hsealed x hx).chained.id_of_confirmed ((hsealed x hx).confirmed (n + 1) hprocessed) hn
  · let Preserved (x y : Note ω) : Prop := KeepsBlocks x.situation.memory y.situation.memory
    have : Trans Preserved Preserved Preserved := ⟨fun h h' => h.trans h'⟩
    exact List.IsChain.pairwise (R := Preserved) (hchain.imp fun _ _ h => h.2)

/-- Two blocks, the second of which reports the id of the first. -/
def linkedPair : Nat → Block
  | 2 => { previous := "b1" }
  | _ => {}

/-- A node with the two blocks, and a store that may be broken: it sets no id then. -/
def besidePair : Surroundings Bool where
  node
    | .block number, broken =>
      (.ok (if number = 1 ∨ number = 2 then some (linkedPair number) else none), broken)
    | .receipts _, broken | .invoke _ _ _ _, broken | .assets _ _, broken | .balances _, broken =>
      (.error (.node "closed"), broken)
  fault
    | .setBlockId _ _, broken => (if broken then some "disk full" else none, broken)
    | _, broken => (none, broken)
  cancelled _ := false

/-- Nothing has been done yet. -/
def pairBeginning : Note Bool := ⟨[], ⟨true, Memory.empty, Cache.empty⟩⟩

/-- A run on the broken store. -/
def brokenNotes : List (Note Bool) :=
  [pairBeginning] ++ pairBeginning ::
    launchJournal besidePair ⟨0, Observer.standard "caller"⟩ 3 [] pairBeginning.situation

/-- Where it was cut short. -/
def brokenEnd : Note Bool := brokenNotes.getLast (List.cons_ne_nil _ _)

/-- A run on the same store, once that is whole again. -/
def repairedNotes : List (Note Bool) :=
  let beginning : Note Bool :=
    ⟨brokenEnd.processed, ⟨false, brokenEnd.situation.memory, Cache.empty⟩⟩
  brokenNotes ++ beginning :: launchJournal besidePair ⟨0, Observer.standard "caller"⟩ 3
    beginning.processed beginning.situation

/-- Where it waits for a third block. -/
def repairedEnd : Note Bool := repairedNotes.getLast (List.cons_ne_nil _ _)

theorem broken_hash_chain_repaired :
    ((brokenEnd.situation.memory.block? 1).map (·.id) = some "" ∧
        (brokenEnd.situation.memory.block? 2).isSome) ∧
      2 ∈ repairedEnd.processed ∧
      ∃ r next, repairedEnd.situation.memory.block? 1 = some r ∧
        repairedEnd.situation.memory.block? 2 = some next ∧ r.id = next.previous ∧
          next.previous = "b1" := by
  have hfixed : besidePair.FixedBlocks linkedPair := by
    intro number world b hreply
    have hfound : (if number = 1 ∨ number = 2 then some (linkedPair number) else none) = some b :=
      Except.ok.inj hreply
    split at hfound
    · exact (Option.some.inj hfound).symm
    · cases hfound
  have hbroken : Life besidePair brokenNotes := .run (.empty true) rfl (List.prefix_refl _)
  have hlife : Life besidePair repairedNotes :=
    .run hbroken (List.getLast?_eq_some_getLast _) (List.prefix_refl _)
  have hend : repairedEnd ∈ repairedNotes := List.getLast_mem _
  have hprocessed : 1 + 1 ∈ repairedEnd.processed := by decide +kernel
  obtain ⟨r, next, hr, hnext, hprevious, hid⟩ :=
    ((blocks_form_hash_chain hfixed hlife).1 repairedEnd hend 1 (Nat.le_refl 1)).2 hprocessed
  have hreported : next.previous = "b1" := hprevious
  exact ⟨by decide +kernel, hprocessed, r, next, hr, hnext, hid (by rw [hreported]; decide),
    hreported⟩

end ChainIndex.Scan
