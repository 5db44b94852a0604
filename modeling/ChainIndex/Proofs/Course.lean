import ChainIndex.Proofs.Progress

/-!
# The course of a store

A node that never changes what it has said gives one chain. The entries of its blocks, one block
after the other, make one sequence, and whatever scanners have done to a store, however often they
were stopped and started again, it has a beginning of that sequence: all entries of the blocks up to
some number, and some of the next. Entries that are made once more recognise themselves, and the
checkpoint is never past the blocks that are complete, so that a new scanner leaves nothing out.
-/

namespace ChainIndex.Scan

open Store (Memory)

variable {ω : Type}

/-! ## Chains -/

/-- A block for every number, and the receipts of every transaction. -/
structure Chain where
  block : Nat → Block
  receipts : String → List Receipt

namespace Chain

variable (chain : Chain)

/-- Receipts as they are given. -/
def given : String → Except Error (List Receipt) := fun transaction =>
  .ok (chain.receipts transaction)

/-- What the chain decides about the block under a number. -/
def entries (number : Nat) : List Entry :=
  (Entry.ofBlock chain.given (asked (chain.block number) number)).filter Entry.isIndexed

/-- What it decides about all blocks up to a number. -/
def through : Nat → List Entry
  | 0 => []
  | number + 1 => through number ++ chain.entries (number + 1)

variable {chain}

theorem isIndexed_of_mem {number : Nat} {entry : Entry} (h : entry ∈ chain.entries number) :
    entry.isIndexed :=
  (List.mem_filter.1 h).2

theorem belongs_of_mem {number : Nat} {entry : Entry} (h : entry ∈ chain.entries number) :
    entry.Belongs chain.given number := by
  have hblock := (List.mem_filter.1 h).1
  exact Entry.belongs_ofBlock hblock

/-- Every entry of the sequence is one of a block. -/
theorem exists_of_mem_through {k : Nat} {entry : Entry} (h : entry ∈ chain.through k) :
    ∃ number, number ≤ k ∧ entry ∈ chain.entries number := by
  induction k with
  | zero => cases h
  | succ k ih =>
    rcases List.mem_append.1 h with h | h
    · obtain ⟨number, hle, hmem⟩ := ih h
      exact ⟨number, Nat.le_succ_of_le hle, hmem⟩
    · exact ⟨k + 1, Nat.le_refl (k + 1), h⟩

theorem mem_through {k number : Nat} {entry : Entry} (hpos : 1 ≤ number) (hle : number ≤ k)
    (h : entry ∈ chain.entries number) : entry ∈ chain.through k := by
  induction k with
  | zero => omega
  | succ k ih =>
    rcases Nat.lt_or_eq_of_le hle with hlt | rfl
    · exact List.mem_append_left _ (ih (Nat.le_of_lt_succ hlt))
    · exact List.mem_append_right _ h

theorem fits_through (k : Nat) : ∀ entry ∈ chain.through k, entry.Fits := by
  intro entry he
  obtain ⟨number, -, hmem⟩ := exists_of_mem_through he
  exact (belongs_of_mem hmem).fits

/-- Entries of a later block, or of the same, may follow. -/
theorem follows_of_mem {number number' : Nat} {entry later : Entry}
    (h : entry ∈ chain.entries number) (hlater : later ∈ chain.entries number')
    (hle : number ≤ number') : later.Follows entry :=
  Entry.follows_of_about (belongs_of_mem h).about (belongs_of_mem hlater).about hle

theorem inOrder_through (k : Nat) : Entry.InOrder (chain.through k) := by
  induction k with
  | zero => exact List.Pairwise.nil
  | succ k ih =>
    refine List.pairwise_append.2 ⟨ih, ?_, ?_⟩
    · exact List.pairwise_of_forall_mem_list fun entry he later hlater =>
        follows_of_mem he hlater (Nat.le_refl _)
    · intro entry he later hlater
      obtain ⟨number, hle, hmem⟩ := exists_of_mem_through he
      exact follows_of_mem hmem hlater (Nat.le_succ_of_le hle)

end Chain

/-! ## Beginnings of the sequence -/

/-- The entries of the blocks up to a number have been made, and some more of the next block. -/
structure Course (chain : Chain) (k : Nat) (more : List Entry) (m : Memory) : Prop where
  part : more <+: chain.entries (k + 1)
  made : Entry.enterAll (chain.through k ++ more) Memory.empty = (.ok (), m)

namespace Course

variable {chain : Chain} {k : Nat} {more : List Entry} {m m' : Memory}

/-- What has been made is part of the sequence up to the next block. -/
theorem prefix_through (h : Course chain k more m) :
    chain.through k ++ more <+: chain.through (k + 1) :=
  (List.prefix_append_right_inj _).2 h.part

theorem fits (h : Course chain k more m) : ∀ entry ∈ chain.through k ++ more, entry.Fits :=
  fun entry he => Chain.fits_through (k + 1) entry (h.prefix_through.subset he)

/-- What has been made is there. -/
theorem made_of_mem (h : Course chain k more m) {entry : Entry}
    (hentry : entry ∈ chain.through k ++ more) : entry.Made m := by
  have horder : Entry.InOrder (chain.through k ++ more) :=
    (Chain.inOrder_through (k + 1)).sublist h.prefix_through.sublist
  exact Entry.made_of_enterAll Memory.wellFormed_empty h.fits horder h.made entry hentry

/-- Entries that have been made already change nothing. -/
theorem enterAll_eq (h : Course chain k more m) {again : List Entry} {number : Nat}
    (hagain : again ⊆ chain.entries number)
    (hthere : ∀ entry ∈ again, entry ∈ chain.through k ++ more) :
    Entry.enterAll again m = (.ok (), m) :=
  Entry.enterAll_of_made (fun _ he => Chain.isIndexed_of_mem (hagain he))
    fun entry he => h.made_of_mem (hthere entry he)

/-- When a block is processed that is complete or the next one, some of its entries leave the store
where it is or further in the next block. -/
theorem replay (h : Course chain k more m) {number : Nat} (hpos : 1 ≤ number)
    (hle : number ≤ k + 1) {again : List Entry} (hagain : again <+: chain.entries number)
    (hmade : Entry.enterAll again m = (.ok (), m')) :
    (Course chain k more m' ∧ (number = k + 1 → again <+: more)) ∨
      (number = k + 1 ∧ Course chain k again m') := by
  -- entries that are all there leave the store as it is
  have hsame : (∀ entry ∈ again, entry ∈ chain.through k ++ more) → Course chain k more m' := by
    intro hthere
    have hagain := h.enterAll_eq hagain.subset hthere
    rw [hmade] at hagain
    cases hagain
    exact h
  rcases Nat.lt_or_eq_of_le hle with hlt | rfl
  · refine .inl ⟨hsame fun entry he => ?_, fun hnext => by omega⟩
    exact List.mem_append_left _
      (Chain.mem_through hpos (Nat.le_of_lt_succ hlt) (hagain.subset he))
  rcases List.prefix_or_prefix_of_prefix hagain h.part with hshort | ⟨rest, rfl⟩
  · have hthere : ∀ entry ∈ again, entry ∈ chain.through k ++ more := by
      intro entry he
      exact List.mem_append_right _ (hshort.subset he)
    exact .inl ⟨hsame hthere, fun _ => hshort⟩
  · refine .inr ⟨rfl, hagain, ?_⟩
    have hmore : Entry.enterAll more m = (.ok (), m) := by
      apply h.enterAll_eq h.part.subset
      intro entry he
      exact List.mem_append_right _ he
    rw [Entry.enterAll_append hmore] at hmade
    rw [← List.append_assoc, Entry.enterAll_append h.made]
    exact hmade

/-- When all entries of such a block have been made, it is complete. -/
theorem finish (h : Course chain k more m) {number : Nat} (hpos : 1 ≤ number)
    (hle : number ≤ k + 1) (hmade : Entry.enterAll (chain.entries number) m = (.ok (), m')) :
    (number ≤ k ∧ Course chain k more m') ∨ (number = k + 1 ∧ Course chain (k + 1) [] m') := by
  have hcomplete : Course chain k (chain.entries (k + 1)) m' → Course chain (k + 1) [] m' :=
    fun h => ⟨List.nil_prefix, by rw [List.append_nil]; exact h.made⟩
  rcases h.replay hpos hle (List.prefix_refl _) hmade with ⟨hsame, hshort⟩ | ⟨rfl, hnext⟩
  · rcases Nat.lt_or_eq_of_le hle with hlt | rfl
    · exact .inl ⟨Nat.le_of_lt_succ hlt, hsame⟩
    · -- they were complete before
      have hall : more = chain.entries (k + 1) :=
        h.part.eq_of_length_le (hshort rfl).length_le
      rw [hall] at hsame
      exact .inr ⟨rfl, hcomplete hsame⟩
  · exact .inr ⟨rfl, hcomplete hnext⟩

end Course

/-! ## Nodes of a chain -/

/-- The node of these surroundings gives the blocks and receipts of a chain whenever it gives any.
It may fail, and it may lack blocks that come later, but a block that is there stays there;
`available` says in which worlds it is. -/
structure Offers (env : Surroundings ω) (resting : ω → ω → Prop) (chain : Chain)
    (available : ω → Nat → Prop) : Prop where
  block : ∀ number world b, (env.node (.block number) world).1 = .ok (some b) →
    b = chain.block number ∧ available (env.node (.block number) world).2 number
  absent : ∀ number world, (env.node (.block number) world).1 = .ok none →
    ¬available world number
  receipts : ∀ transaction world received,
    (env.node (.receipts transaction) world).1 = .ok received →
    received = chain.receipts transaction
  node : ∀ request world number, available world number →
    available (env.node request world).2 number
  fault : ∀ request world number, available world number →
    available (env.fault request world).2 number
  resting : ∀ world world' number, resting world world' → available world number →
    available world' number

section

variable {env : Surroundings ω} {resting : ω → ω → Prop} {chain : Chain}
  {available : ω → Nat → Prop}

theorem Offers.faithful (h : Offers env resting chain available) : env.Faithful chain.given := by
  intro transaction world received hreply
  rw [h.receipts transaction world received hreply]
  rfl

/-- A block that is there stays there, whatever is asked. -/
theorem Offers.answer (h : Offers env resting chain available) (request : Request)
    {s : Situation ω} {number : Nat} (hs : available s.world number) :
    available (env.answer request s).2.world number := by
  cases request with
  | store request =>
    have hfault := h.fault request s.world number hs
    cases hreply : env.fault request s.world with
    | mk fault world =>
      rw [hreply] at hfault
      cases fault with
      | some detail =>
        rw [env.answer_of_fault hreply]
        exact hfault
      | none =>
        rw [env.answer_of_no_fault hreply]
        exact hfault
  | node request => exact h.node request s.world number hs
  | cache request => exact hs
  | cancelled => exact hs

end

/-! ## Stores on their course -/

/-- A scanner on a store that is complete up to a number, from where a new scanner can go on. -/
structure Resumable (chain : Chain) (available : ω → Nat → Prop) (k : Nat) (s : Situation ω) :
    Prop where
  sound : Sound s
  limit : (k : Int) ≤ int64Max
  checkpoint : ∃ c, Checkpoint.stored s.memory = .ok c ∧ c ≤ k
  there : ∀ number, 1 ≤ number → number ≤ k → available s.world number
  course : ∃ more, Course chain k more s.memory.indexed ∧
    (more ≠ [] → available s.world (k + 1))

section

variable {env : Surroundings ω} {resting : ω → ω → Prop} {chain : Chain}
  {available : ω → Nat → Prop} {k cursor : Nat} {s : Situation ω}

theorem resumable_empty (world : ω) :
    Resumable chain available 0 ⟨world, Memory.empty, Cache.empty⟩ where
  sound := sound_of_wellFormed Memory.wellFormed_empty world
  limit := by decide
  checkpoint := ⟨0, rfl, Nat.le_refl 0⟩
  there number hpos hle := by omega
  course := ⟨[], ⟨List.nil_prefix, rfl⟩, fun h => absurd rfl h⟩

/-- The world may go on, and a new scanner may take over. -/
theorem Resumable.move (h : Resumable chain available k s) {s' : Situation ω} (hsound : Sound s')
    (hmemory : s'.memory = s.memory)
    (hworld : ∀ number, available s.world number → available s'.world number) :
    Resumable chain available k s' := by
  obtain ⟨more, hcourse, hmore⟩ := h.course
  refine ⟨hsound, h.limit, ?_, ?_, more, ?_, ?_⟩
  · rw [hmemory]
    exact h.checkpoint
  · exact fun number hpos hle => hworld number (h.there number hpos hle)
  · rw [hmemory]
    exact hcourse
  · exact fun hne => hworld (k + 1) (hmore hne)

/-! ## A block -/

/-- Since some situation the checkpoint has been left alone, and the blocks that were there are. -/
def Frame.since (hoffers : Offers env resting chain available) (s₀ : Situation ω) : Frame env where
  Holds s := Checkpoint.stored s.memory = Checkpoint.stored s₀.memory ∧
    ∀ number, available s₀.world number → available s.world number
  keep request s hwithin hs := by
    obtain ⟨hstored, hthere⟩ := hs
    refine ⟨?_, fun number hnumber => hoffers.answer request (hthere number hnumber)⟩
    rw [Checkpoint.stored_answer env hwithin]
    exact hstored

/-- Some entries of a block, seen in the part that the chain decides. -/
theorem enterAll_entries {b : Block} {made : List Entry} {m m' : Memory} (hm : m.WellFormed)
    (hbegins : made <+: Entry.ofBlock chain.given b)
    (hmade : Entry.enterAll made m.history = (.ok (), m'.history)) :
    Entry.enterAll (made.filter Entry.isIndexed) m.indexed = (.ok (), m'.indexed) := by
  have hfits : ∀ entry ∈ made, entry.Fits := by
    intro entry he
    exact (Entry.belongs_ofBlock (hbegins.subset he)).fits
  have hindexed := Entry.enterAll_indexed hm.history hfits
  rw [hmade] at hindexed
  exact hindexed

/-- The number of a block that has been made fits its column. -/
theorem le_of_enterAll {b : Block} {m m' : Memory} (hm : m.WellFormed)
    (h : Entry.enterAll (Entry.ofBlock chain.given b) m = (.ok (), m')) :
    (b.number : Int) ≤ int64Max := by
  have hfits : ∀ entry ∈ Entry.ofBlock chain.given b, entry.Fits := by
    intro entry he
    exact (Entry.belongs_ofBlock he).fits
  have hfirst : Entry.block b ∈ Entry.ofBlock chain.given b := List.mem_cons_self
  obtain ⟨m₁, m₂, -, hblock⟩ := Entry.enter_of_mem hm hfits h hfirst
  obtain ⟨record, hrecord, -⟩ := Entry.of_bind hblock
  exact (Entry.block_record hrecord).2

/-- A store on its course, with other entries made and the rest as it was. -/
theorem Resumable.since {hoffers : Offers env resting chain available}
    (h : Resumable chain available k s) {s' : Situation ω} (hs' : (Frame.since hoffers s).At s')
    {more : List Entry} (hcourse : Course chain k more s'.memory.indexed)
    (hmore : more ≠ [] → available s'.world (k + 1)) : Resumable chain available k s' where
  sound := hs'.sound
  limit := h.limit
  checkpoint := by
    rw [hs'.holds.1]
    exact h.checkpoint
  there number hpos hle := hs'.holds.2 number (h.there number hpos hle)
  course := ⟨more, hcourse, hmore⟩

/-- Processing a block of the chain leaves the store on its course, and a block that was processed
to a good end is complete. -/
theorem indexBlock_resumable (hoffers : Offers env resting chain available)
    (h : Resumable chain available k s) (hpos : 1 ≤ cursor) (hle : cursor ≤ k + 1)
    (hcursor : available s.world cursor) (interval : Nat) (caller : String) :
    (indexBlock ⟨interval, Observer.standard caller⟩ (asked (chain.block cursor) cursor)).Ensures
      env.answer (Resumable chain available k)
      (fun r s' => ∃ k', Resumable chain available k' s' ∧ k ≤ k' ∧ (r = .ok () → cursor ≤ k'))
      s := by
  have hs : (Frame.since hoffers s).At s := ⟨⟨rfl, fun _ => id⟩, h.sound⟩
  obtain ⟨more, hcourse, hmore⟩ := h.course
  have henters := indexBlock_enters hoffers.faithful hs interval caller
    (asked (chain.block cursor) cursor)
  -- wherever the block has got to, some of its entries have been made
  have hpart : ∀ s', (Frame.since hoffers s).Reached
      (Entry.ofBlock chain.given (asked (chain.block cursor) cursor)) s.memory.history s' →
      Resumable chain available k s' := by
    rintro s' ⟨hs', made, hbegins, hmade⟩
    have hentries := enterAll_entries h.sound.memory hbegins hmade
    rcases hcourse.replay hpos hle (hbegins.filter _) hentries with ⟨hsame, -⟩ | ⟨rfl, hnext⟩
    · exact h.since hs' hsame fun hne => hs'.holds.2 (k + 1) (hmore hne)
    · exact h.since hs' hnext fun _ => hs'.holds.2 (k + 1) hcursor
  apply henters.ensures.mono hpart
  rintro (e | ⟨⟩) s' ⟨hreached, houtcome⟩
  · exact ⟨k, hpart s' hreached, Nat.le_refl k, nofun⟩
  obtain ⟨hmade, -⟩ := houtcome
  have hs' := hreached.now
  have hentries := enterAll_entries h.sound.memory (List.prefix_refl _) hmade
  rcases hcourse.finish hpos hle hentries with ⟨hdone, hsame⟩ | ⟨rfl, hcomplete⟩
  · have hresumable := h.since hs' hsame fun hne => hs'.holds.2 (k + 1) (hmore hne)
    exact ⟨k, hresumable, Nat.le_refl k, fun _ => hdone⟩
  · -- one more block is complete
    have hresumable := hpart s' hreached
    obtain ⟨c, hstored, hc⟩ := hresumable.checkpoint
    have hlimit := le_of_enterAll h.sound.memory.history hmade
    refine ⟨k + 1, ⟨hs'.sound, hlimit, ⟨c, hstored, by omega⟩, fun number hpos hle => ?_, [],
      hcomplete, fun hne => absurd rfl hne⟩, by omega, fun _ => Nat.le_refl (k + 1)⟩
    rcases Nat.lt_or_eq_of_le hle with hlt | rfl
    · exact hresumable.there number hpos (Nat.le_of_lt_succ hlt)
    · exact hs'.holds.2 (k + 1) hcursor

/-! ## Runs -/

/-- Runs keep a store on its course. -/
theorem progressive_resumable (hoffers : Offers env resting chain available) :
    Progressive env (Resumable chain available) where
  limit h := h.limit
  checkpoint h := h.checkpoint
  fault {_ s} request h := h.move (h.sound.withWorld _) rfl fun number hnumber =>
    hoffers.fault request s.world number hnumber
  node {_ s} number h := h.move (h.sound.withWorld _) rfl fun other hother =>
    hoffers.node (.block number) s.world other hother
  moved {k s number} h hle := by
    have hproper : (Store.Request.putConfig Checkpoint.key (Checkpoint.text number)).Proper :=
      trivial
    have hlimit := h.limit
    have hword : number ≤ word64Max := Checkpoint.le_word64Max (by omega)
    -- the entries are the same, and only the checkpoint is new
    exact ⟨h.sound.answer hproper s.world, h.limit,
      ⟨number, Checkpoint.stored_putConfig _ hword, hle⟩, h.there, h.course⟩
  block {k cursor s b} h hpos hle hreply interval caller := by
    obtain ⟨rfl, hcursor⟩ := hoffers.block cursor s.world b hreply
    have hs : Resumable chain available k
        { s with world := (env.node (.block cursor) s.world).2 } :=
      h.move (h.sound.withWorld _) rfl fun number hnumber =>
        hoffers.node (.block cursor) s.world number hnumber
    exact indexBlock_resumable hoffers hs hpos hle hcursor interval caller

/-- A run that starts after the checkpoint leaves a store on its course. -/
theorem launch_resumable (hoffers : Offers env resting chain available)
    (h : Resumable chain available k s) (interval : Nat) (caller : String) (rounds : Nat) :
    (launch ⟨interval, Observer.standard caller⟩ none rounds).Ensures env.answer
      (fun s' => ∃ k', Resumable chain available k' s')
      (fun r s' => ∃ k', Ended (Resumable chain available) k' r s') s :=
  (progressive_resumable hoffers).launch h interval caller rounds

/-- However often scanners are started after the checkpoint, and wherever they are cut short, they
leave a store on its course that was empty at first. -/
theorem Reachable.resumable (hoffers : Offers env resting chain available)
    (h : Reachable env resting (· = none) s) : ∃ k, Resumable chain available k s :=
  (progressive_resumable hoffers).reachable resumable_empty
    (fun {_ s world} h hrest => h.move (sound_of_wellFormed h.sound.memory world) rfl
      fun number hnumber => hoffers.resting s.world world number hrest hnumber) h

end

end ChainIndex.Scan
