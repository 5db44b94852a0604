import ChainIndex.Proofs.LiveAnswers

/-!
# Replaying blocks

A block, or a range of blocks, that is processed once more against the same node comes to the same
end and changes nothing of what the chain decides, also where it was stopped by data that cannot be
stored. A run makes a list of entries, the run after it makes the same list, and each entry
recognises itself.
-/

namespace ChainIndex.Scan

open Store (Memory)

variable {ω : Type} {env : Surroundings ω}

/-! ## Two runs with the same entries -/

section

variable {α : Type} {Γ : Frame env} {receipts : String → Except Error (List Receipt)}
  {es : List Entry} {p : Procedure α} {v : α} {s s' : Situation ω}

/-- A run that starts where one with the same entries has ended comes to the same end, and leaves
what the chain decides as it is. -/
theorem Enters.again (hcalm : env.Calm receipts) (hsound : Sound s)
    (hfits : ∀ entry ∈ es, entry.Fits) (horder : Entry.InOrder es)
    (h : Enters Γ receipts .strict es p (fun a _ => a = v) s)
    (h' : Enters Γ receipts .strict es p (fun a _ => a = v) s')
    (hmemory : s'.memory = (Program.run env.answer p s).2.memory) :
    (Program.run env.answer p s').1 = (Program.run env.answer p s).1 ∧
      (Program.run env.answer p s').2.memory.indexed = s'.memory.indexed := by
  obtain ⟨hresult, hhistory⟩ := h.run hcalm
  obtain ⟨hresult', hhistory'⟩ := h'.run hcalm
  have hm := hsound.memory.history
  have hm' : s'.memory.history.WellFormed := by
    rw [hmemory, hhistory]
    exact Entry.enterAll_wellFormed hm hfits
  -- both runs are seen in the part that the chain decides
  have hfirst := Entry.enterAll_indexed hm hfits
  have hsecond := Entry.enterAll_indexed hm' hfits
  have hindexed : ∀ e ∈ es.filter Entry.isIndexed, e.isIndexed := by
    intro e he
    exact (List.mem_filter.1 he).2
  have hagain := Entry.enterAll_again hm.indexed hindexed
    (fun e he => hfits e (List.mem_filter.1 he).1) (List.Pairwise.filter _ horder)
  have hbetween : s'.memory.history.indexed =
      (Entry.enterAll es s.memory.history).2.indexed := by
    rw [hmemory, hhistory]
  rw [hfirst, ← hbetween, hsecond] at hagain
  obtain ⟨hsame, hleft⟩ := Prod.mk.inj hagain
  constructor
  · rw [hresult, hresult', hsame]
  · exact (congrArg Memory.indexed hhistory').trans hleft

/-- Where no answer of the node is a failure of a store, a run does not fail like one. -/
theorem Enters.decodes (hcalm : env.Calm receipts) (hsound : Sound s)
    (hfits : ∀ entry ∈ es, entry.Fits)
    (hrefusal : ∀ e, .refusal e ∈ es → e.isStoreFailure = false)
    (h : Enters Γ receipts .strict es p (fun a _ => a = v) s) :
    Entry.Decodes (Program.run env.answer p s).1 := by
  rw [(h.run hcalm).1]
  intro e he
  cases hall : (Entry.enterAll es s.memory.history).1 with
  | ok _ =>
    rw [hall] at he
    cases he
  | error e' =>
    rw [hall] at he
    cases he
    exact Entry.enterAll_decodes hsound.memory.history hfits hrefusal e hall

end

/-- Moving the checkpoint makes no entries. -/
theorem moveTo_enters {receipts : String → Except Error (List Receipt)} {s : Situation ω}
    (hs : (Frame.plain env).At s) (number : Nat) :
    Enters (Frame.plain env) receipts .strict [] (Checkpoint.moveTo number) (fun _ _ => True)
      s := by
  unfold Checkpoint.moveTo
  refine enters_read hs trivial rfl rfl fun world hs => ?_
  split
  · exact enters_done hs trivial
  · rw [← Program.bind_done (store _)]
    exact enters_store_of_holds [] hs trivial trivial rfl rfl fun world hs =>
      enters_done hs trivial

/-! ## The entries of a scan -/

/-- The entries of a round. -/
def roundEntries (answers : Answers) (cursor : Nat) : List Entry :=
  match answers (.block cursor) with
  | .error e => [.refusal e]
  | .ok none => []
  | .ok (some b) =>
    Entry.ofBlock (fun transaction => answers (.receipts transaction)) (asked b cursor)

/-- Where a round that ends well leads. -/
def cursorAfter (answers : Answers) (cursor : Nat) : Nat :=
  match answers (.block cursor) with
  | .ok (some _) => cursor + 1
  | _ => cursor

/-- The entries of a number of rounds. -/
def scanEntries (answers : Answers) : (rounds : Nat) → (cursor : Nat) → List Entry
  | 0, _ => []
  | rounds + 1, cursor =>
    roundEntries answers cursor ++ scanEntries answers rounds (cursorAfter answers cursor)

/-- Where a number of rounds that end well lead. -/
def scanEnd (answers : Answers) : (rounds : Nat) → (cursor : Nat) → Nat
  | 0, cursor => cursor
  | rounds + 1, cursor => scanEnd answers rounds (cursorAfter answers cursor)

section

variable {answers : Answers}

/-- What belongs to a scan belongs to a block that it asks for. -/
theorem belongs_roundEntries
    (hanswers : ∀ request e, answers request = .error e → e.isStoreFailure = false)
    {cursor : Nat} {entry : Entry} (h : entry ∈ roundEntries answers cursor) :
    entry.Belongs (fun transaction => answers (.receipts transaction)) cursor := by
  unfold roundEntries at h
  split at h
  · rename_i e hblock
    cases List.mem_singleton.1 h
    refine ⟨trivial, trivial, fun e' he' => .inl ?_⟩
    cases he'
    exact hanswers _ e hblock
  · cases h
  · exact Entry.belongs_ofBlock h

theorem le_cursorAfter (cursor : Nat) : cursor ≤ cursorAfter answers cursor := by
  unfold cursorAfter
  split <;> omega

theorem belongs_scanEntries
    (hanswers : ∀ request e, answers request = .error e → e.isStoreFailure = false)
    {rounds cursor : Nat} {entry : Entry} (h : entry ∈ scanEntries answers rounds cursor) :
    ∃ number, cursor ≤ number ∧
      entry.Belongs (fun transaction => answers (.receipts transaction)) number := by
  induction rounds generalizing cursor with
  | zero => cases h
  | succ rounds ih =>
    rcases List.mem_append.1 h with h | h
    · exact ⟨cursor, Nat.le_refl cursor, belongs_roundEntries hanswers h⟩
    · obtain ⟨number, hle, hbelongs⟩ := ih h
      exact ⟨number, Nat.le_trans (le_cursorAfter cursor) hle, hbelongs⟩

/-- The entries of a block come in order. -/
theorem inOrder_of_belongs {receipts : String → Except Error (List Receipt)} {number : Nat}
    {es : List Entry} (h : ∀ entry ∈ es, entry.Belongs receipts number) : Entry.InOrder es :=
  List.pairwise_of_forall_mem_list fun entry he later hlater =>
    Entry.follows_of_about (h entry he).about (h later hlater).about (Nat.le_refl number)

/-- And so do those of a scan. -/
theorem inOrder_scanEntries
    (hanswers : ∀ request e, answers request = .error e → e.isStoreFailure = false)
    (rounds cursor : Nat) : Entry.InOrder (scanEntries answers rounds cursor) := by
  induction rounds generalizing cursor with
  | zero => exact List.Pairwise.nil
  | succ rounds ih =>
    refine List.pairwise_append.2 ⟨inOrder_of_belongs fun entry => belongs_roundEntries hanswers,
      ih _, fun entry he later hlater => ?_⟩
    obtain ⟨number, hle, hbelongs⟩ := belongs_scanEntries hanswers hlater
    exact Entry.follows_of_about (belongs_roundEntries hanswers he).about hbelongs.about
      (Nat.le_trans (le_cursorAfter cursor) hle)

/-! ## A scan, as entries -/

variable {s : Situation Unit}

/-- Nobody cancels a steady run, so that an error ends it. -/
theorem breakOff_steady (cursor : Nat) (e : Error) (s : Situation Unit) :
    (breakOff cursor e).Ensures (Surroundings.steady answers).answer (fun s' => s' = s)
      (fun r s' => r = .error e ∧ s' = s) s := by
  unfold breakOff
  split
  · exact ⟨rfl, rfl, rfl⟩
  · exact ⟨rfl, rfl⟩

/-- A round makes the entries of its block. -/
theorem advance_enters (hs : (Frame.plain (Surroundings.steady answers)).At s) (interval : Nat)
    (caller : String) (cursor : Nat) :
    Enters (Frame.plain (Surroundings.steady answers))
      (fun transaction => answers (.receipts transaction)) .strict (roundEntries answers cursor)
      (advance ⟨interval, Observer.standard caller⟩ cursor)
      (fun position _ => position = .scanning (cursorAfter answers cursor)) s := by
  have hfaithful : (Surroundings.steady answers).Faithful
      (fun transaction => answers (.receipts transaction)) := fun _ _ _ hreply => hreply
  -- the run is not cancelled, and the node answers
  refine ⟨⟨hs.reached _, hs.reached _, ?_⟩⟩
  show Program.Ensures _ _ _ (((Program.ofExcept (answers (.block cursor))).attempt).bind _) s
  unfold roundEntries cursorAfter
  match answers (.block cursor) with
  | .error e =>
    refine (breakOff_steady cursor e s).mono ?_ ?_
    · rintro s' rfl
      exact hs.reached _
    · rintro r s' ⟨rfl, rfl⟩
      exact ⟨hs.reached _, fun _ => rfl⟩
  | .ok none =>
    exact ((moveTo_enters hs (cursor - 1)).andThen fun _ _ hs _ => enters_done hs rfl).ensures
  | .ok (some b) =>
    refine ((indexBlock_enters hfaithful hs interval caller (asked b cursor)).attemptOr
      (fun e s' _ => breakOff_steady cursor e s') fun _ _ hs _ => ?_).ensures
    simp only [Program.bind_eq, Program.pure_eq]
    split
    · exact (moveTo_enters hs cursor).andThen fun _ _ hs _ => enters_done hs rfl
    · exact enters_done hs rfl

theorem scan_enters (hs : (Frame.plain (Surroundings.steady answers)).At s) (interval : Nat)
    (caller : String) (rounds cursor : Nat) :
    Enters (Frame.plain (Surroundings.steady answers))
      (fun transaction => answers (.receipts transaction)) .strict
      (scanEntries answers rounds cursor)
      (scan ⟨interval, Observer.standard caller⟩ rounds cursor)
      (fun position _ => position = .scanning (scanEnd answers rounds cursor)) s := by
  induction rounds generalizing s cursor with
  | zero => exact enters_done hs rfl
  | succ rounds ih =>
    apply (advance_enters hs interval caller cursor).bind nofun
    intro position s' hs' _ hend
    rw [hend]
    exact ih hs' _

end

/-! ## Replays -/

/-- Processing something a second time, with the same scanner or a new one, comes to the same end
as before, which is no failure of the store, and leaves what the chain decides as it was. -/
def Replays {α : Type} (env : Surroundings ω) (p : Procedure α) (s : Situation ω) : Prop :=
  (∀ e, (p.run env.side s).1 = .error e → e.isStoreFailure = false) ∧
    ∀ cache world, cache = (p.run env.side s).2.cache ∨ cache = Cache.empty →
      let s₁ : Situation ω := ⟨world, (p.run env.side s).2.memory, cache⟩
      (p.run env.side s₁).1 = (p.run env.side s).1 ∧
        (p.run env.side s₁).2.memory.indexed = s₁.memory.indexed

/-- What makes entries in order can be replayed. -/
theorem replays_of_enters {α : Type} {receipts : String → Except Error (List Receipt)}
    (hcalm : env.Calm receipts) {es : List Entry} (hfits : ∀ entry ∈ es, entry.Fits)
    (horder : Entry.InOrder es) (hrefusal : ∀ e, .refusal e ∈ es → e.isStoreFailure = false)
    {p : Procedure α} {v : α}
    (henters : ∀ s, (Frame.plain env).At s →
      Enters (Frame.plain env) receipts .strict es p (fun a _ => a = v) s)
    {s : Situation ω} (hsound : Sound s) : Replays env p s := by
  have hfirst := henters s ⟨trivial, hsound⟩
  refine ⟨hfirst.decodes hcalm hsound hfits hrefusal, fun cache world hcache => ?_⟩
  -- the scanner that goes on, or a new one, is sound where the first run has ended
  have hsound' : Sound (⟨world, (p.run env.side s).2.memory, cache⟩ : Situation ω) := by
    have hlast := hfirst.at_end.sound
    rcases hcache with rfl | rfl
    · exact { hlast with }
    · exact sound_of_wellFormed hlast.memory world
  exact hfirst.again hcalm hsound hfits horder (henters _ ⟨trivial, hsound'⟩) rfl

/-- On a store that scanners have made, a block or a range of blocks that is processed against a
node with fixed answers, none of them a failure of a store, can be replayed. -/
theorem replay_changes_nothing {env : Surroundings ω} {resting : ω → ω → Prop}
    {starts : Option Nat → Prop} {s : Situation ω} (hs : Reachable env resting starts s)
    {cache : Cache} (hcache : cache = s.cache ∨ cache = Cache.empty) {answers : Answers}
    (hanswers : ∀ request e, answers request = .error e → e.isStoreFailure = false)
    (interval : Nat) (caller : String) :
    let setup : Setup := ⟨interval, Observer.standard caller⟩
    (∀ b, Replays (Surroundings.steady answers) (indexBlock setup b) ⟨(), s.memory, cache⟩) ∧
      ∀ rounds start,
        Replays (Surroundings.steady answers) (scan setup rounds start) ⟨(), s.memory, cache⟩ := by
  intro setup
  have hcalm := calm_steady fun request e _ => hanswers request e
  have hsound : Sound (⟨(), s.memory, cache⟩ : Situation Unit) := hs.sound_of_cache hcache ()
  -- an entry that refuses something hands on what the node or the decoding has said
  have hrefusal : ∀ {number : Nat} {e : Error},
      (Entry.refusal e).Belongs (fun transaction => answers (.receipts transaction)) number →
        e.isStoreFailure = false := by
    intro number e hbelongs
    rcases hbelongs.refusal e rfl with he | ⟨transaction, hreceipts⟩
    · exact he
    · exact hanswers _ e hreceipts
  constructor
  · intro b
    have hbelongs : ∀ entry ∈ Entry.ofBlock (fun transaction => answers (.receipts transaction)) b,
        entry.Belongs (fun transaction => answers (.receipts transaction)) b.number :=
      fun _ => Entry.belongs_ofBlock
    refine replays_of_enters hcalm (v := ()) (fun entry he => (hbelongs entry he).fits)
      (inOrder_of_belongs hbelongs) (fun e he => hrefusal (hbelongs _ he)) (fun s' hs' => ?_) hsound
    exact (indexBlock_enters (fun _ _ _ hreply => hreply) hs' interval caller b).weaken
      fun _ _ _ => rfl
  · intro rounds start
    refine replays_of_enters hcalm
      (fun entry he => (belongs_scanEntries hanswers he).elim fun _ h => h.2.fits)
      (inOrder_scanEntries hanswers rounds start)
      (fun e he => (belongs_scanEntries hanswers he).elim fun _ h => hrefusal h.2)
      (fun s' hs' => scan_enters hs' interval caller rounds start) hsound

theorem replay_of_transfer_changes_nothing :
    let setup : Setup := ⟨1, Observer.standard "caller"⟩
    Replays (withoutBalances (.node "closed")) (indexBlock setup transferring)
        ⟨(), Memory.empty, Cache.empty⟩ ∧
      Replays (withoutBalances (.node "closed")) (scan setup 3 1)
        ⟨(), Memory.empty, Cache.empty⟩ := by
  intro setup
  have hreachable : Reachable (withoutBalances (.node "closed")) (fun _ _ => True)
      (fun _ => True) ⟨(), Memory.empty, Cache.empty⟩ := .empty ()
  have hanswers : ∀ request e,
      Answers.lone transferring (.node "closed") request = .error e → e.isStoreFailure = false :=
    Answers.lone_error rfl
  obtain ⟨hblock, hrange⟩ :=
    replay_changes_nothing hreachable (.inl rfl) hanswers 1 "caller"
  exact ⟨hblock transferring, hrange 3 1⟩

end ChainIndex.Scan
