import ChainIndex.Proofs.CoreEntries

/-!
# Scans under changing receipts

Against a node that never changes what it has said of blocks, but gives whatever receipts it likes,
the part of a store that blocks decide follows one sequence of entries. A receipt that is stored has
all operations of its transaction behind it, if the node does not give one transaction the receipts
of another.
-/

namespace ChainIndex.Scan

open Store (Memory)

variable {ω : Type} {env : Surroundings ω} {blocks : Nat → Block}

/-! ## Receipts and operations -/

/-- A store has all operations of a transaction whose id a receipt bears. -/
def Behind (blocks : Nat → Block) (m : Memory) (r : ReceiptRecord) : Prop :=
  ∃ number tx, 1 ≤ number ∧ tx ∈ (asked (blocks number) number).transactions ∧
    r.transaction = tx.id ∧
    ∀ index < tx.operations.length, (m.operation? (placeId number tx.id index)).isSome

/-- There are operations behind all receipts. -/
def Backed (blocks : Nat → Block) (m : Memory) : Prop := ∀ r ∈ m.receipts, Behind blocks m r

/-- What is behind a receipt stays there. -/
theorem Behind.grow {m m' : Memory} {r : ReceiptRecord} (h : Behind blocks m r)
    (hgrows : m.Grows m') : Behind blocks m' r := by
  obtain ⟨number, tx, hpos, htx, hid, hthere⟩ := h
  exact ⟨number, tx, hpos, htx, hid, fun index hindex => hgrows.operation _ (hthere index hindex)⟩

section

variable {number : Nat} {tx : Transaction} {received : List Receipt} {made : List Entry}
  {m m' : Memory}

/-- Entries without receipts leave the operations behind receipts. -/
theorem Backed.enterAll (h : Backed blocks m) (hm : m.WellFormed)
    (hfits : ∀ entry ∈ made, entry.Fits) (hnone : ∀ outcome, .receipt outcome ∉ made)
    (hmade : Entry.enterAll made m = (.ok (), m')) : Backed blocks m' := by
  intro r hr
  rcases Entry.enterAll_receipts hm hfits hmade r hr with hold | ⟨outcome, houtcome, -⟩
  · exact (h r hold).grow (Entry.enterAll_grows hmade)
  · exact absurd houtcome (hnone outcome)

theorem not_mem_receipt_ofOperations {b : Block} {start : Nat} {raws : List Json}
    (outcome : Receipt) : .receipt outcome ∉ Entry.ofOperations b tx received start raws := by
  induction raws generalizing start with
  | nil => nofun
  | cons raw rest ih =>
    intro hmem
    rcases List.mem_append.1 hmem with hmem | hmem
    · have hindexed := List.mem_filter.2 ⟨hmem, (rfl : (Entry.receipt outcome).isIndexed)⟩
      rw [Entry.indexed_ofOperation] at hindexed
      cases hdecode : Operation.decode raw with
      | error e => simp [hdecode] at hindexed
      | ok decoded =>
        simp only [hdecode, List.mem_cons, reduceCtorEq, false_or] at hindexed
        obtain ⟨holder, hholder⟩ := Entry.mem_ofAccountCreation hindexed
        cases hholder
    · split at hmem
      · exact ih hmem
      · cases hmem

/-- Receipts that name their transaction are entered after all of its operations. -/
theorem Backed.ofReceived (h : Backed blocks m) (hm : m.WellFormed) (hpos : 1 ≤ number)
    (htx : tx ∈ (asked (blocks number) number).transactions)
    (hreceived : ∀ outcome ∈ received, outcome.transaction = tx.id)
    (hbegins : made <+: Entry.ofReceived (asked (blocks number) number) tx received)
    (hmade : Entry.enterAll made m = (.ok (), m')) : Backed blocks m' := by
  have hbelongs : ∀ entry ∈ made, entry.Belongs (fun _ => .ok []) number := by
    intro entry he
    exact Entry.belongs_ofReceived (hbegins.subset he)
  have hfits : ∀ entry ∈ made, entry.Fits := fun entry he => (hbelongs entry he).fits
  have hsplit : Entry.ofReceived (asked (blocks number) number) tx received =
      (.transaction tx ::
        Entry.ofOperations (asked (blocks number) number) tx received 0 tx.operations) ++
          received.map .receipt := rfl
  rw [hsplit] at hbegins
  rcases List.prefix_or_prefix_of_prefix hbegins (List.prefix_append _ _) with hshort | hlong
  · -- no receipt has been reached
    apply h.enterAll hm hfits _ hmade
    intro outcome hmem
    rcases List.mem_cons.1 (hshort.subset hmem) with heq | hmem
    · cases heq
    · exact not_mem_receipt_ofOperations outcome hmem
  · have horder : Entry.InOrder made :=
      List.pairwise_of_forall_mem_list fun entry he later hlater =>
        Entry.follows_of_about (hbelongs entry he).about (hbelongs later hlater).about
          (Nat.le_refl number)
    have hoperations : ∀ index < tx.operations.length,
        (m'.operation? (placeId number tx.id index)).isSome := by
      intro index hindex
      have henter : ∀ entry ∈ Entry.ofOperations (asked (blocks number) number) tx received 0
          tx.operations, entry.Enterable := by
        intro entry he
        obtain ⟨m₁, m₂, hm₁, henter⟩ := Entry.enter_of_mem hm hfits hmade
          (hlong.subset (List.mem_cons_of_mem _ he))
        exact ⟨m₁, m₂, hm₁, henter⟩
      obtain ⟨op, hop, hid⟩ := Entry.exists_operation henter hindex
      have hthere := Entry.made_of_enterAll hm hfits horder hmade _
        (hlong.subset (List.mem_cons_of_mem _ hop))
      have hthere : (m'.operation? op.id).isSome := hthere
      rw [hid, Nat.zero_add] at hthere
      exact hthere
    intro r hr
    rcases Entry.enterAll_receipts hm hfits hmade r hr with hold | ⟨outcome, houtcome, hsame⟩
    · exact (h r hold).grow (Entry.enterAll_grows hmade)
    · refine ⟨number, tx, hpos, htx, ?_, hoperations⟩
      rw [hsame]
      rcases List.mem_append.1 (hbegins.subset houtcome) with hmem | hmem
      · rcases List.mem_cons.1 hmem with heq | hmem
        · cases heq
        · exact absurd hmem (not_mem_receipt_ofOperations outcome)
      · obtain ⟨outcome', houtcome', heq⟩ := List.mem_map.1 hmem
        cases heq
        exact hreceived outcome houtcome'

end

/-! ## Procedures -/

/-- A moment at which some entries of a list have been made, as far as blocks decide them. -/
structure Frame.Unfolded (Γ : Frame env) (blocks : Nat → Block) (es : List Entry) (m : Memory)
    (s : Situation ω) : Prop where
  now : Γ.At s
  partly : Partly es m s.memory.core
  backed : Backed blocks s.memory

/-- From a situation, a procedure makes the entries of a list, as far as blocks decide them. -/
def Unfolds {α : Type} (Γ : Frame env) (blocks : Nat → Block) (es : List Entry)
    (p : Procedure α) (s : Situation ω) : Prop :=
  p.Ensures env.answer (Γ.Unfolded blocks es s.memory.core)
    (fun r s' => Γ.Unfolded blocks es s.memory.core s' ∧
      ∀ a, r = .ok a → Entry.enterAll es s.memory.core = (.ok (), s'.memory.core)) s

section

variable {α β : Type} {Γ : Frame env} {es es' : List Entry} {s : Situation ω}

/-- One procedure after another. -/
theorem Unfolds.bind {p : Procedure β} {f : β → Procedure α} (hp : Unfolds Γ blocks es p s)
    (hrest : ∀ b s', Γ.At s' → Backed blocks s'.memory → Unfolds Γ blocks es' (f b) s') :
    Unfolds Γ blocks (es ++ es') (p.bind f) s := by
  have hfirst : ∀ {s'}, Γ.Unfolded blocks es s.memory.core s' →
      Γ.Unfolded blocks (es ++ es') s.memory.core s' :=
    fun h => ⟨h.now, h.partly.extend es', h.backed⟩
  refine Program.ensures_bind.2 (Program.Ensures.mono hp (fun _ => hfirst) ?_)
  rintro (e | b) s' ⟨hreached, hend⟩
  · exact ⟨hfirst hreached, nofun⟩
  have hmade := hend b rfl
  refine Program.Ensures.mono (hrest b s' hreached.now hreached.backed) ?_ ?_
  · intro s'' h
    exact ⟨h.now, h.partly.after hmade, h.backed⟩
  · rintro r s'' ⟨h, hend'⟩
    refine ⟨⟨h.now, h.partly.after hmade, h.backed⟩, fun a ha => ?_⟩
    rw [Entry.enterAll_append hmade, hend' a ha]

/-- A procedure that makes entries makes those of them that blocks decide. -/
theorem Enters.unfolds {receipts : String → Except Error (List Receipt)} {manner : Manner}
    {p : Procedure α} {post : α → Situation ω → Prop}
    (h : Enters Γ receipts manner es p post s) (hm : s.memory.WellFormed)
    (hfits : ∀ entry ∈ es, entry.Fits)
    (hbacked : ∀ made m', made <+: es →
      Entry.enterAll made s.memory.history = (.ok (), m') → Backed blocks m') :
    Unfolds Γ blocks (es.filter Entry.isCore) p s := by
  have hreached : ∀ s', Γ.Reached es s.memory.history s' →
      Γ.Unfolded blocks (es.filter Entry.isCore) s.memory.core s' := by
    rintro s' ⟨hs', made, hbegins, hmade⟩
    have hcore := Entry.enterAll_core hm.history (fun e he => hfits e (hbegins.subset he)) hmade
    have hback := hbacked made s'.memory.history hbegins hmade
    exact ⟨hs', ⟨_, hbegins.filter _, hcore⟩, hback⟩
  apply h.ensures.mono hreached
  rintro r s' ⟨hs', houtcome⟩
  refine ⟨hreached s' hs', fun a ha => ?_⟩
  subst ha
  have hcore := Entry.enterAll_core hm.history hfits houtcome.1
  exact hcore

/-! ## Blocks -/

/-- A node that does not give one transaction the receipts of another. -/
def Surroundings.OwnReceipts (env : Surroundings ω) : Prop :=
  ∀ transaction world received, (env.node (.receipts transaction) world).1 = .ok received →
    ∀ r ∈ received, r.transaction = "" ∨ r.transaction = transaction

variable {number : Nat} {tx : Transaction}

/-- A transaction whose receipts are known. -/
theorem indexReceived_unfolds (hs : Γ.At s) (hback : Backed blocks s.memory) (interval : Nat)
    (caller : String) (hpos : 1 ≤ number)
    (htx : tx ∈ (asked (blocks number) number).transactions) {received : List Receipt}
    (hreceived : ∀ outcome ∈ received, outcome.transaction = tx.id) :
    Unfolds Γ blocks
      ((Entry.ofReceived (asked (blocks number) number) tx []).filter Entry.isIndexed)
      ((recordTransaction tx).bind fun _ =>
        (indexOperations ⟨interval, Observer.standard caller⟩ (asked (blocks number) number) tx
          received 0 tx.operations).bind fun _ => (recordReceipts received).bind fun _ => .done ())
      s := by
  rw [← Entry.core_ofReceived]
  have henters : Enters Γ (fun _ => .ok []) _ _ _ _ s :=
    indexReceived_enters hs interval caller (asked (blocks number) number) tx received
  refine henters.unfolds hs.sound.memory (fun entry he => ?_) fun made m' hbegins hmade => ?_
  · have hbelongs : entry.Belongs (fun _ => .ok []) number := Entry.belongs_ofReceived he
    exact hbelongs.fits
  · exact Backed.ofReceived (m := s.memory.history) hback hs.sound.memory.history hpos htx
      hreceived hbegins hmade

theorem indexTransaction_unfolds (hreceipts : env.OwnReceipts) (hs : Γ.At s)
    (hback : Backed blocks s.memory) (interval : Nat) (caller : String) (hpos : 1 ≤ number)
    (htx : tx ∈ (asked (blocks number) number).transactions) :
    Unfolds Γ blocks
      ((Entry.ofReceived (asked (blocks number) number) tx []).filter Entry.isIndexed)
      (indexTransaction ⟨interval, Observer.standard caller⟩ (asked (blocks number) number) tx)
      s := by
  unfold indexTransaction neededReceipts
  by_cases hcalls : tx.callsContract
  case neg =>
    rw [if_neg hcalls]
    have hnone : ∀ outcome ∈ ([] : List Receipt), outcome.transaction = tx.id := nofun
    exact indexReceived_unfolds hs hback interval caller hpos htx hnone
  rw [if_pos hcalls]
  have hs' := at_receipts hs tx.id
  have hnow : Γ.Unfolded blocks
      ((Entry.ofReceived (asked (blocks number) number) tx []).filter Entry.isIndexed)
      s.memory.core { s with world := (env.node (.receipts tx.id) s.world).2 } :=
    ⟨hs', Partly.refl _ _, hback⟩
  refine ⟨hnow, ?_⟩
  show Program.Ensures env.answer _ _
    (((Program.ofExcept (env.node (.receipts tx.id) s.world).1).bind _).bind _)
    { s with world := _ }
  cases hreply : (env.node (.receipts tx.id) s.world).1 with
  | error e => exact ⟨hnow, nofun⟩
  | ok received =>
    refine indexReceived_unfolds hs' hback interval caller hpos htx fun outcome houtcome => ?_
    obtain ⟨r, hr, rfl⟩ := List.mem_map.1 houtcome
    -- a receipt that names no transaction gets the name of this one
    rcases hreceipts tx.id s.world received hreply r hr with hnone | hown
    · exact if_pos hnone
    · simp [completeReceipt, hown]

theorem indexTransactions_unfolds (hreceipts : env.OwnReceipts) (hs : Γ.At s)
    (hback : Backed blocks s.memory) (interval : Nat) (caller : String) (hpos : 1 ≤ number)
    {txs : List Transaction} (htxs : txs ⊆ (asked (blocks number) number).transactions) :
    Unfolds Γ blocks
      (txs.flatMap fun tx =>
        (Entry.ofReceived (asked (blocks number) number) tx []).filter Entry.isIndexed)
      (indexTransactions ⟨interval, Observer.standard caller⟩ (asked (blocks number) number) txs)
      s := by
  induction txs generalizing s with
  | nil => exact ⟨⟨hs, Partly.refl _ _, hback⟩, fun _ _ => rfl⟩
  | cons tx rest ih =>
    rw [List.flatMap_cons]
    have hfirst := indexTransaction_unfolds hreceipts hs hback interval caller hpos
      (htxs List.mem_cons_self)
    have hrest : rest ⊆ _ := fun _ h => htxs (List.mem_cons_of_mem tx h)
    exact hfirst.bind fun _ s' hs' hback' => ih hs' hback' hrest

end

/-- The chain of some blocks, without receipts. -/
def Chain.bare (blocks : Nat → Block) : Chain := ⟨blocks, fun _ => []⟩

/-- The entries of a block without receipts. -/
theorem entries_bare (blocks : Nat → Block) (number : Nat) :
    (Chain.bare blocks).entries number =
      [.block (asked (blocks number) number)] ++ ([.previousId (asked (blocks number) number)] ++
        (asked (blocks number) number).transactions.flatMap fun tx =>
          (Entry.ofReceived (asked (blocks number) number) tx []).filter Entry.isIndexed) := by
  have htransaction : ∀ tx, Entry.ofTransaction (Chain.bare blocks).given
      (asked (blocks number) number) tx =
        Entry.ofReceived (asked (blocks number) number) tx [] := by
    intro tx
    unfold Entry.ofTransaction
    split <;> rfl
  have hblock : (Chain.bare blocks).block number = blocks number := rfl
  rw [Chain.entries, Entry.ofBlock, hblock, List.filter_cons_of_pos rfl,
    List.filter_cons_of_pos rfl, List.filter_flatMap]
  simp only [htransaction, List.singleton_append]

/-- Processing a block makes the entries of the block without receipts, whatever receipts the node
gives. -/
theorem indexBlock_unfolds {Γ : Frame env} {s : Situation ω} (hreceipts : env.OwnReceipts)
    (hs : Γ.At s) (hback : Backed blocks s.memory) (interval : Nat) (caller : String)
    {number : Nat} (hpos : 1 ≤ number) :
    Unfolds Γ blocks ((Chain.bare blocks).entries number)
      (indexBlock ⟨interval, Observer.standard caller⟩ (asked (blocks number) number)) s := by
  -- an entry without receipts leaves what is behind them
  have hquiet : ∀ {s : Situation ω} {made es m'}, Γ.At s → Backed blocks s.memory →
      (∀ entry ∈ es, entry.Fits) → (∀ outcome, .receipt outcome ∉ es) → made <+: es →
      Entry.enterAll made s.memory.history = (.ok (), m') → Backed blocks m' := by
    intro s made es m' hs hback hfits hnone hbegins hmade
    exact Backed.enterAll (m := s.memory.history) hback hs.sound.memory.history
      (fun e he => hfits e (hbegins.subset he)) (fun o ho => hnone o (hbegins.subset ho)) hmade
  rw [entries_bare]
  unfold indexBlock
  have hrecord : Enters Γ (fun _ => .ok []) _ _ _ _ s :=
    recordBlock_enters hs (asked (blocks number) number)
  have hblock : Unfolds Γ blocks _ _ s :=
    hrecord.unfolds hs.sound.memory (by simp [Entry.Fits]) fun made m' =>
      hquiet hs hback (by simp [Entry.Fits]) (by simp)
  refine hblock.bind fun _ s₁ hs₁ hback₁ => ?_
  have hrecord₁ : Enters Γ (fun _ => .ok []) _ _ _ _ s₁ :=
    recordPreviousId_enters hs₁ (asked (blocks number) number)
  have hprevious : Unfolds Γ blocks _ _ s₁ :=
    hrecord₁.unfolds hs₁.sound.memory (by simp [Entry.Fits]) fun made m' =>
      hquiet hs₁ hback₁ (by simp [Entry.Fits]) (by simp)
  refine hprevious.bind fun _ s₂ hs₂ hback₂ => ?_
  exact indexTransactions_unfolds hreceipts hs₂ hback₂ interval caller hpos fun _ => id

/-! ## Runs -/

/-- A node that gives these blocks whenever it gives any. -/
def Surroundings.FixedBlocks (env : Surroundings ω) (blocks : Nat → Block) : Prop :=
  ∀ number world b, (env.node (.block number) world).1 = .ok (some b) → b = blocks number

/-- A scanner on a store that is complete up to a number, as far as blocks decide. -/
structure Unfolding (blocks : Nat → Block) (k : Nat) (s : Situation ω) : Prop where
  sound : Sound s
  limit : (k : Int) ≤ int64Max
  checkpoint : ∃ c, Checkpoint.stored s.memory = .ok c ∧ c ≤ k
  course : ∃ more, Course (Chain.bare blocks) k more s.memory.core
  backed : Backed blocks s.memory

/-- Since some situation the checkpoint has been left alone. -/
def Frame.unmoved (env : Surroundings ω) (s₀ : Situation ω) : Frame env where
  Holds s := Checkpoint.stored s.memory = Checkpoint.stored s₀.memory
  keep request s hwithin hs := by
    rw [Checkpoint.stored_answer env hwithin]
    exact hs

variable {k cursor : Nat} {s : Situation ω}

theorem unfolding_empty (world : ω) : Unfolding blocks 0 ⟨world, Memory.empty, Cache.empty⟩ where
  sound := sound_of_wellFormed Memory.wellFormed_empty world
  limit := by decide
  checkpoint := ⟨0, rfl, Nat.le_refl 0⟩
  course := ⟨[], List.nil_prefix, rfl⟩
  backed _ hr := by cases hr

/-- The world may go on, and a new scanner may take over. -/
theorem Unfolding.move (h : Unfolding blocks k s) {s' : Situation ω} (hsound : Sound s')
    (hmemory : s'.memory = s.memory) : Unfolding blocks k s' where
  sound := hsound
  limit := h.limit
  checkpoint := by
    rw [hmemory]
    exact h.checkpoint
  course := by
    rw [hmemory]
    exact h.course
  backed := by
    rw [hmemory]
    exact h.backed

/-- Processing a block leaves the complete blocks complete, and adds the block to them if it comes
to a good end. -/
theorem indexBlock_unfolding (hreceipts : env.OwnReceipts) (h : Unfolding blocks k s)
    (hpos : 1 ≤ cursor) (hle : cursor ≤ k + 1) (interval : Nat) (caller : String) :
    (indexBlock ⟨interval, Observer.standard caller⟩ (asked (blocks cursor) cursor)).Ensures
      env.answer (Unfolding blocks k)
      (fun r s' => ∃ k', Unfolding blocks k' s' ∧ k ≤ k' ∧ (r = .ok () → cursor ≤ k')) s := by
  have hs : (Frame.unmoved env s).At s := ⟨rfl, h.sound⟩
  obtain ⟨more, hcourse⟩ := h.course
  obtain ⟨c, hstored, hc⟩ := h.checkpoint
  have hunfolds := indexBlock_unfolds hreceipts hs h.backed interval caller hpos
  -- wherever the block has got to, some of its entries have been made
  have hpart : ∀ s', (Frame.unmoved env s).Unfolded blocks ((Chain.bare blocks).entries cursor)
      s.memory.core s' → Unfolding blocks k s' := by
    rintro s' ⟨hs', ⟨made, hbegins, hmade⟩, hback⟩
    refine ⟨hs'.sound, h.limit, ⟨c, hs'.holds.trans hstored, hc⟩, ?_, hback⟩
    rcases hcourse.replay hpos hle hbegins hmade with ⟨hsame, -⟩ | ⟨rfl, hnext⟩
    · exact ⟨more, hsame⟩
    · exact ⟨made, hnext⟩
  apply Program.Ensures.mono hunfolds hpart
  rintro (e | ⟨⟩) s' ⟨hreached, hend⟩
  · exact ⟨k, hpart s' hreached, Nat.le_refl k, nofun⟩
  have hmade := hend () rfl
  rcases hcourse.finish hpos hle hmade with ⟨hdone, hsame⟩ | ⟨rfl, hcomplete⟩
  · exact ⟨k, hpart s' hreached, Nat.le_refl k, fun _ => hdone⟩
  · -- one more block is complete, and its number has been stored
    have hfits : ∀ entry ∈ (Chain.bare blocks).entries (k + 1), entry.Fits :=
      fun entry he => (Chain.belongs_of_mem he).fits
    have hcore : s.memory.core.WellFormed := h.sound.memory.indexed.congr rfl rfl rfl
    have hfirst : Entry.block (asked (blocks (k + 1)) (k + 1)) ∈
        (Chain.bare blocks).entries (k + 1) := by simp [entries_bare]
    obtain ⟨m₁, m₂, -, hblock⟩ := Entry.enter_of_mem hcore hfits hmade hfirst
    obtain ⟨record, hrecord, -⟩ := Entry.of_bind hblock
    have hlimit : ((k + 1 : Nat) : Int) ≤ int64Max := (Entry.block_record hrecord).2
    have hstored' := hreached.now.holds.trans hstored
    exact ⟨k + 1, ⟨hreached.now.sound, hlimit, ⟨c, hstored', Nat.le_succ_of_le hc⟩,
      ⟨[], hcomplete⟩, hreached.backed⟩, Nat.le_succ k, fun _ => Nat.le_refl (k + 1)⟩

/-- Runs keep a store to the sequence of its blocks. -/
theorem progressive_unfolding (hfixed : env.FixedBlocks blocks) (hreceipts : env.OwnReceipts) :
    Progressive env (Unfolding blocks) where
  limit h := h.limit
  checkpoint h := h.checkpoint
  fault _ h := h.move (h.sound.withWorld _) rfl
  node _ h := h.move (h.sound.withWorld _) rfl
  moved {k s number} h hle := by
    have hproper : (Store.Request.putConfig Checkpoint.key (Checkpoint.text number)).Proper :=
      trivial
    have hlimit := h.limit
    have hword : number ≤ word64Max := Checkpoint.le_word64Max (by omega)
    exact ⟨h.sound.answer hproper s.world, h.limit,
      ⟨number, Checkpoint.stored_putConfig _ hword, hle⟩, h.course, h.backed⟩
  block {k cursor s b} h hpos hle hreply interval caller := by
    obtain rfl := hfixed cursor s.world b hreply
    have hs : Unfolding blocks k { s with world := (env.node (.block cursor) s.world).2 } :=
      h.move (h.sound.withWorld _) rfl
    exact indexBlock_unfolding hreceipts hs hpos hle interval caller

/-- However often scanners are started after the checkpoint, and wherever they are cut short, they
keep a store that was empty at first to the sequence of the blocks. -/
theorem Reachable.unfolding {resting : ω → ω → Prop} (hfixed : env.FixedBlocks blocks)
    (hreceipts : env.OwnReceipts) (h : Reachable env resting (· = none) s) :
    ∃ k, Unfolding blocks k s :=
  (progressive_unfolding hfixed hreceipts).reachable unfolding_empty
    (fun {_ _ world} h _ => h.move (sound_of_wellFormed h.sound.memory world) rfl) h

end ChainIndex.Scan
