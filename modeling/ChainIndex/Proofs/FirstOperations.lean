import ChainIndex.Proofs.TableFounders
import ChainIndex.Proofs.Unfolding

/-!
# The first operations of their types

A run goes through the operations of its blocks in their order. Where blocks do not change and runs
start after the checkpoint, the tables of all operations in the blocks before are there, so that an
operation for which a run finds no table is the first one of its type in the chain.
-/

namespace ChainIndex.Scan

open Store (Memory)

variable {ω : Type} {env : Surroundings ω} {s : Situation ω}

variable {blocks : Nat → Block} {resting : ω → ω → Prop} {starts : Option Nat → Prop} {k c : Nat}

/-! ## The order of a chain -/

/-- An operation is the first one of its type in the chain of some blocks. -/
def Foremost (blocks : Nat → Block) (op : Placed) : Prop :=
  ∃ k, (operationsThrough blocks k).find?
    (fun op' => WideTable.name op'.typeName = WideTable.name op.typeName) = some op

theorem operationsThrough_succ (blocks : Nat → Block) (k : Nat) :
    operationsThrough blocks (k + 1) = operationsThrough blocks k ++
      (asked (blocks (k + 1)) (k + 1)).transactions.flatMap Transaction.placed :=
  List.flatMap_append

theorem operationsThrough_mono {k' : Nat} (h : k ≤ k') :
    operationsThrough blocks k <+: operationsThrough blocks k' := by
  induction h with
  | refl => exact List.prefix_rfl
  | step _ ih =>
    rw [operationsThrough_succ]
    exact ih.trans (List.prefix_append _ _)

/-- A type has one first operation. -/
theorem Foremost.unique {op op' : Placed} (h : Foremost blocks op) (h' : Foremost blocks op')
    (hname : WideTable.name op.typeName = WideTable.name op'.typeName) : op = op' := by
  obtain ⟨k, hk⟩ := h
  obtain ⟨k', hk'⟩ := h'
  have hfound := (operationsThrough_mono (Nat.le_max_left k k')).find?_eq_some hk
  have hfound' := (operationsThrough_mono (Nat.le_max_right k k')).find?_eq_some hk'
  rw [hname] at hfound
  exact Option.some.inj (hfound.symm.trans hfound')

/-- What comes in turn after the blocks up to a number continues their operations. -/
theorem Surroundings.Brings.through (hfixed : env.FixedBlocks blocks) {next : Nat}
    {ops : List Placed} (h : env.Brings (c + 1) next ops) :
    ∃ k, next = k + 1 ∧ operationsThrough blocks k = operationsThrough blocks c ++ ops := by
  induction h with
  | none => exact ⟨c, rfl, (List.append_nil _).symm⟩
  | @block next ops b world _ given ih =>
    obtain ⟨k, rfl, hthrough⟩ := ih
    refine ⟨k + 1, rfl, ?_⟩
    rw [operationsThrough_succ, hthrough, List.append_assoc, hfixed (k + 1) world b given]

/-- The node tells of the operations that come in turn. -/
theorem Surroundings.Brings.tells {first next : Nat} {ops : List Placed}
    (h : env.Brings first next ops) {op : Placed} (hop : op ∈ ops) : env.Tells op := by
  induction h with
  | none => cases hop
  | @block next ops b world _ given ih =>
    rcases List.mem_append.1 hop with hop | hop
    · exact ih hop
    · obtain ⟨tx, htx, hop⟩ := List.mem_flatMap.1 hop
      obtain ⟨raw, code, p, hraw, hdecode, hplaced⟩ := decode_of_mem_placed hop
      have hnumber : op.blockNumber = next := by
        rw [hplaced]
        exact blockNumber_of_mem_asked htx
      rw [blockNumber_of_mem_asked htx] at hplaced
      rw [← hnumber] at given htx hplaced
      exact ⟨world, b, tx, raw, code, p, given, htx, hraw, hdecode, hplaced⟩

/-! ## Tables of complete blocks -/

/-- Where a procedure ends well, the tables of all operations that it has stored are there. -/
theorem Anatomy.leaves_tables {caller : String} {due : List Placed → Prop} {α : Type}
    {post : List Placed → α → Prop} {before : List Placed} {p : Procedure α}
    (hp : Anatomy env caller due post before p) (hs : Sound s)
    (hthere : ∀ op ∈ before, s.memory.table? (WideTable.name op.typeName) ≠ none) {a : α}
    (hrun : (Program.run env.answer p s).1 = .ok a) :
    ∃ after, post after a ∧ ∀ op ∈ after,
      (Program.run env.answer p s).2.memory.table? (WideTable.name op.typeName) ≠ none := by
  have hkept : ∀ {m m' : Memory} {ops : List Placed}, m.Grows m' →
      (∀ op ∈ ops, m.table? (WideTable.name op.typeName) ≠ none) →
      ∀ op ∈ ops, m'.table? (WideTable.name op.typeName) ≠ none :=
    fun hgrows hthere op hop hnone => hthere op hop (hgrows.table?_eq_none hnone)
  induction hp generalizing s with
  | done hpost =>
    cases hrun
    exact ⟨_, hpost, hthere⟩
  | fail e => cases hrun
  | @ask before request next outer _ ih =>
    exact ih s hs (hs.outer outer) (hkept (env.answer_grows request s) hthere) hrun
  | @record before op next told turn number index halt _ ih =>
    rw [Program.run_bind, Program.run_attempt] at hrun ⊢
    obtain ⟨hsound, hposition⟩ := recordOperation_end hs (told.fits index)
    refine ih _ hposition hsound (fun op' hop' => ?_) hrun
    rcases List.mem_append.1 hop' with hop' | hop'
    · exact hkept (run_grows _ s) hthere op' hop'
    · rw [List.mem_singleton.1 hop']
      intro hnone
      obtain ⟨-, hfailed⟩ := recordOperation_stages hs (told.fits index)
      obtain ⟨e, hfail, he⟩ := hfailed hnone
      simp only [hfail, halt e he] at hrun
      cases hrun
  | @observe before seen next _ _ ih =>
    rw [Program.run_bind, Program.run_attempt] at hrun ⊢
    exact ih _ (applyAll_end hs caller seen) (hkept (run_grows _ s) hthere) hrun

/-- The tables of all operations in the blocks up to a number are there, and the checkpoint is not
past that number. -/
structure Tabulated (blocks : Nat → Block) (k : Nat) (s : Situation ω) : Prop where
  sound : Sound s
  limit : (k : Int) ≤ int64Max
  checkpoint : ∃ c, Checkpoint.stored s.memory = .ok c ∧ c ≤ k
  there : ∀ op ∈ operationsThrough blocks k, s.memory.table? (WideTable.name op.typeName) ≠ none

theorem tabulated_empty (world : ω) : Tabulated blocks 0 ⟨world, Memory.empty, Cache.empty⟩ where
  sound := sound_of_wellFormed Memory.wellFormed_empty world
  limit := by decide
  checkpoint := ⟨0, rfl, Nat.le_refl 0⟩
  there op hop := by cases hop

/-- The checkpoint is left alone, and the tables of some operations are there. -/
def Frame.tabulated (env : Surroundings ω) (c : Nat) (ops : List Placed) : Frame env where
  Holds s := Checkpoint.stored s.memory = .ok c ∧
    ∀ op ∈ ops, s.memory.table? (WideTable.name op.typeName) ≠ none
  keep request s hwithin hs := by
    refine ⟨?_, fun op hop hnone =>
      hs.2 op hop ((env.answer_grows request s).table?_eq_none hnone)⟩
    rw [Checkpoint.stored_answer env hwithin]
    exact hs.1

/-- A block that is processed to a good end leaves the tables of its operations. -/
theorem indexBlock_tabulated (hfixed : env.FixedBlocks blocks) (h : Tabulated blocks k s)
    {cursor : Nat} {b : Block} {world : ω} (hle : cursor ≤ k + 1)
    (hreply : (env.node (.block cursor) world).1 = .ok (some b)) (interval : Nat)
    (caller : String) :
    (indexBlock ⟨interval, Observer.standard caller⟩ (asked b cursor)).Ensures env.answer
      (Tabulated blocks k)
      (fun r s' => ∃ k', Tabulated blocks k' s' ∧ k ≤ k' ∧ (r = .ok () → cursor ≤ k')) s := by
  obtain ⟨c, hstored, hc⟩ := h.checkpoint
  have hs : (Frame.tabulated env c (operationsThrough blocks k)).At s :=
    ⟨⟨hstored, h.there⟩, h.sound⟩
  have hsame : ∀ s', (Frame.tabulated env c (operationsThrough blocks k)).At s' →
      Tabulated blocks k s' := fun s' hs' =>
    ⟨hs'.sound, h.limit, ⟨c, hs'.holds.1, hc⟩, hs'.holds.2⟩
  obtain ⟨hmoments, hend, hstored'⟩ :=
    Program.ensures_iff.1 (indexBlock_keeps hs interval caller (asked b cursor))
  refine Program.ensures_iff.2 ⟨fun s' hs' => hsame s' (hmoments s' hs'), ?_⟩
  by_cases hnew : (Program.run env.answer
      (indexBlock ⟨interval, Observer.standard caller⟩ (asked b cursor)) s).1 = .ok () ∧
    cursor = k + 1
  · obtain ⟨hok, rfl⟩ := hnew
    -- every operation of the block has been stored
    have hanatomy : Anatomy env caller (fun _ => True) _ [] _ :=
      indexBlock_anatomy env interval caller hreply fun _ _ => trivial
    obtain ⟨after, rfl, hthere⟩ := hanatomy.leaves_tables h.sound nofun hok
    refine ⟨k + 1, ⟨hend.sound, (hstored' () hok).1, ⟨c, hend.holds.1, Nat.le_succ_of_le hc⟩,
      fun op hop => ?_⟩, Nat.le_succ k, fun _ => Nat.le_refl _⟩
    rw [operationsThrough_succ] at hop
    rcases List.mem_append.1 hop with hop | hop
    · exact hend.holds.2 op hop
    · rw [← hfixed (k + 1) world b hreply] at hop
      exact hthere op hop
  · refine ⟨k, hsame _ hend, Nat.le_refl k, fun hok => ?_⟩
    have hother : cursor ≠ k + 1 := fun hcursor => hnew ⟨hok, hcursor⟩
    omega

theorem progressive_tabulated (hfixed : env.FixedBlocks blocks) :
    Progressive env (Tabulated blocks) where
  limit h := h.limit
  checkpoint h := h.checkpoint
  fault _ h := ⟨h.sound.withWorld _, h.limit, h.checkpoint, h.there⟩
  node _ h := ⟨h.sound.withWorld _, h.limit, h.checkpoint, h.there⟩
  moved {k s number} h hle := by
    have hproper : (Store.Request.putConfig Checkpoint.key (Checkpoint.text number)).Proper :=
      trivial
    have hlimit := h.limit
    have hword : number ≤ word64Max := Checkpoint.le_word64Max (by omega)
    exact ⟨h.sound.answer hproper s.world, h.limit,
      ⟨number, Checkpoint.stored_putConfig _ hword, hle⟩, h.there⟩
  block {k cursor s b} h _ hle hreply interval caller :=
    indexBlock_tabulated hfixed
      ⟨h.sound.withWorld (env.node (.block cursor) s.world).2, h.limit, h.checkpoint, h.there⟩
      hle hreply interval caller

/-- However often scanners are started after the checkpoint, and wherever they are cut short, the
tables are there for all blocks up to the checkpoint. -/
theorem Reachable.tabulated (hfixed : env.FixedBlocks blocks)
    (h : Reachable env resting (· = none) s) : ∃ k, Tabulated blocks k s :=
  (progressive_tabulated hfixed).reachable tabulated_empty
    (fun {_ _ world} h _ => ⟨sound_of_wellFormed h.sound.memory world, h.limit, h.checkpoint,
      h.there⟩) h

/-! ## Runs -/

/-- An operation for which a run finds no table is the first of its type, if it comes before the
others in the run. -/
theorem Tabulated.leading (hfixed : env.FixedBlocks blocks) (h : Tabulated blocks k s)
    {s' : Situation ω} {world : ω} {first : Nat}
    (hrun : Program.run env.answer (Checkpoint.start none) ⟨world, s.memory, Cache.empty⟩ =
      (.ok first, s')) :
    Leading (Foremost blocks) (env.InTurn first) [] s.memory := by
  obtain ⟨c, hstored, hc⟩ := h.checkpoint
  have hlimit := h.limit
  have hsmall : (c : Int) ≤ int64Max := by omega
  -- the run starts after the checkpoint
  have hfirst : first = c + 1 := by
    rw [(start_reads env _).2] at hrun
    simp only [hstored, Except.map, Checkpoint.succ_mod_word hsmall] at hrun
    split at hrun
    · cases hrun
    · cases hrun
      rfl
  subst hfirst
  rintro more op ⟨next, all, hbrings, rest, rfl⟩ hnone hmore
  obtain ⟨k', rfl, hthrough⟩ := hbrings.through hfixed
  refine ⟨k', ?_⟩
  have hbelow : (operationsThrough blocks c).find?
      (fun op' => WideTable.name op'.typeName = WideTable.name op.typeName) = none := by
    refine List.find?_eq_none.2 fun op' hop' hname => ?_
    have hop' := (operationsThrough_mono hc).subset hop'
    exact h.there op' hop' (of_decide_eq_true hname ▸ hnone)
  have hearlier : more.find?
      (fun op' => WideTable.name op'.typeName = WideTable.name op.typeName) = none :=
    List.find?_eq_none.2 fun op' hop' hname => hmore op' hop' (of_decide_eq_true hname)
  rw [hthrough, List.find?_append, hbelow, Option.none_or, List.nil_append, List.append_assoc,
    List.find?_append, hearlier, Option.none_or, List.singleton_append]
  exact List.find?_cons_of_pos (decide_eq_true rfl)

/-- What is known of the tables at the end of a chronicle. Where blocks do not change and runs start
after the checkpoint, the first operation of a type in the chain leads. -/
theorem Chronicle.tabled_in_order {n : Nat} {past : List (Recorded ω)}
    (h : Chronicle env resting starts n past s) :
    Tabled env
      (fun op => ∀ blocks, env.FixedBlocks blocks → (∀ start, starts start → start = none) →
        Foremost blocks op) past s.memory := by
  refine h.tabled fun before allowed hrun more op hdue hnone hmore blocks hfixed hstarts => ?_
  obtain rfl := hstarts _ allowed
  obtain ⟨k, hk⟩ := (before.reachable.mono hstarts).tabulated hfixed
  exact hk.leading hfixed hrun more op hdue hnone hmore

end ChainIndex.Scan
