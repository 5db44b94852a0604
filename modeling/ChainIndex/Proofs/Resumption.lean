import ChainIndex.Proofs.Course
import ChainIndex.Proofs.LiveAnswers

/-!
# Interrupted runs end like one that is not

However often scanners are started on a store and wherever they are cut short, when the last of them
gets to the head of the chain, what the chain decides of the store is the same as after a single run
that nothing has disturbed. Both are all entries of the blocks up to the head, made on an empty
store. That a run gets to the head at all shows that every one of them can be made, so that the
undisturbed run gets there as well.
-/

namespace ChainIndex.Scan

open Store (Memory)

variable {ω : Type}

/-! ## Ends at the head -/

/-- A run that starts after the checkpoint is stopped after a block when the next is not there. -/
def EndsAtHead (env : Surroundings ω) (setup : Setup) (rounds head : Nat) (s s' : Situation ω) :
    Prop :=
  (launch setup none rounds).run env.side s = (.ok (.stopped head), s') ∧
    (env.node (.block (head + 1)) s'.world).1 = .ok none

/-- At the head, the entries of all blocks up to there have been made, and no others. -/
theorem EndsAtHead.made {env : Surroundings ω} {resting : ω → ω → Prop} {chain : Chain}
    {available : ω → Nat → Prop} (hoffers : Offers env resting chain available) {interval : Nat}
    {caller : String} {rounds head k : Nat} {s s' : Situation ω}
    (hs : Resumable chain available k s)
    (hend : EndsAtHead env ⟨interval, Observer.standard caller⟩ rounds head s s') :
    Entry.enterAll (chain.through head) Memory.empty = (.ok (), s'.memory.indexed) := by
  obtain ⟨hrun, hnone⟩ := hend
  have hlaunch := launch_resumable hoffers hs interval caller rounds
  obtain ⟨-, k', hround⟩ := Program.ensures_iff.1 hlaunch
  have hrun' : Program.run env.answer (launch ⟨interval, Observer.standard caller⟩ none rounds) s =
      (.ok (.stopped head), s') := hrun
  rw [hrun'] at hround
  have hle : head ≤ k' := hround.stopped head rfl
  have hmissing : ¬available s'.world (head + 1) := hoffers.absent (head + 1) s'.world hnone
  -- nothing is complete past the head
  have hk : k' = head := by
    rcases Nat.lt_or_eq_of_le hle with hlt | heq
    · exact absurd (hround.now.there (head + 1) (by omega) hlt) hmissing
    · exact heq.symm
  subst hk
  obtain ⟨more, hcourse, hmore⟩ := hround.now.course
  have hnil : more = [] := Classical.byContradiction fun hne => hmissing (hmore hne)
  subst hnil
  have hmade := hcourse.made
  rw [List.append_nil] at hmade
  exact hmade

/-! ## The undisturbed run -/

/-- Surroundings in which the chain is there up to a head, and nothing fails but what is asked about
the present. When a block past the head is asked for, the run is cancelled. -/
def Surroundings.undisturbed (chain : Chain) (live : Answers) (head : Nat) : Surroundings Bool where
  node
    | .block number, cancel =>
      if number ≤ head then (.ok (some (chain.block number)), cancel) else (.ok none, true)
    | .receipts transaction, cancel => (.ok (chain.receipts transaction), cancel)
    | request, cancel => (live request, cancel)
  fault _ cancel := (none, cancel)
  cancelled cancel := cancel

section

variable {chain : Chain} {live : Answers} {head k : Nat} {s : Situation Bool}

theorem offers_undisturbed (chain : Chain) (live : Answers) (head : Nat) :
    Offers (.undisturbed chain live head) (fun _ _ => True) chain (fun _ number => number ≤ head)
    where
  block number world b hreply := by
    simp only [Surroundings.undisturbed] at hreply
    split at hreply
    · rename_i hle
      cases hreply
      exact ⟨rfl, hle⟩
    · cases hreply
  absent number world hreply hle := by
    simp only [Surroundings.undisturbed, if_pos hle] at hreply
    cases hreply
  receipts transaction world received hreply := by
    cases hreply
    rfl
  node _ _ _ hle := hle
  fault _ _ _ hle := hle
  resting _ _ _ _ hle := hle

theorem calm_undisturbed
    (hlive : ∀ request e, request.isLive → live request = .error e → e.isStoreFailure = false) :
    (Surroundings.undisturbed chain live head).Calm chain.given where
  receipts _ _ := rfl
  live request world e hrequest hreply := by
    apply hlive request e hrequest
    cases request with
    | block | receipts => cases hrequest
    | invoke | assets | balances => exact hreply
  store _ _ := rfl

/-- No block past the head has been asked for. -/
def Frame.uncancelled (chain : Chain) (live : Answers) (head : Nat) :
    Frame (.undisturbed chain live head) where
  Holds s := s.world = false
  keep request s hwithin hs := by
    cases request with
    | store request => exact hs
    | node request =>
      cases request with
      | block => cases hwithin
      | receipts | invoke | assets | balances => exact hs
    | cache | cancelled => exact hs

/-- The undisturbed run has made the entries of the blocks up to a number. -/
structure Underway (chain : Chain) (cancel : Bool) (k : Nat) (s : Situation Bool) : Prop where
  sound : Sound s
  world : s.world = cancel
  made : Entry.enterAll (chain.through k) Memory.empty = (.ok (), s.memory.indexed)

theorem underway_empty (chain : Chain) :
    Underway chain false 0 ⟨false, Memory.empty, Cache.empty⟩ where
  sound := sound_of_wellFormed Memory.wellFormed_empty false
  world := rfl
  made := rfl

/-- Nothing keeps it from moving the checkpoint. -/
theorem moveTo_underway (live : Answers) (head : Nat) {cancel : Bool}
    (hs : Underway chain cancel k s) (number : Nat) :
    ∃ s', Program.run (Surroundings.undisturbed chain live head).answer (Checkpoint.moveTo number) s
        = (.ok (), s') ∧ Underway chain cancel k s' := by
  have hmoving := moveTo_moving (Surroundings.undisturbed chain live head) number s
  generalize Program.run _ (Checkpoint.moveTo number) s = result at hmoving ⊢
  generalize (Checkpoint.moveTo number).moments _ s = moments at hmoving
  cases hmoving with
  | unread hfault => cases hfault
  | unwritten _ hfault => cases hfault
  | there hread _ =>
    cases hread
    exact ⟨_, rfl, hs⟩
  | written hread hwrite =>
    cases hread
    cases hwrite
    have hproper : (Store.Request.putConfig Checkpoint.key (Checkpoint.text number)).Proper :=
      trivial
    exact ⟨_, rfl, hs.sound.answer hproper s.world, hs.world, hs.made⟩

/-- That may end a round. -/
theorem moveTo_done_underway (live : Answers) (head : Nat) {cancel : Bool}
    (hs : Underway chain cancel k s) (number : Nat) (position : Position) :
    ∃ s', Program.run (Surroundings.undisturbed chain live head).answer
        ((Checkpoint.moveTo number).bind fun _ => .done position) s = (.ok position, s') ∧
      Underway chain cancel k s' := by
  obtain ⟨s', hmove, hs'⟩ := moveTo_underway live head hs number
  refine ⟨s', ?_, hs'⟩
  rw [Program.run_bind, hmove]
  rfl

/-- The beginning of a sequence that can be made can be made. -/
theorem enterAll_through {m : Memory} (hle : k ≤ head)
    (h : Entry.enterAll (chain.through head) Memory.empty = (.ok (), m)) :
    ∃ m', Entry.enterAll (chain.through k) Memory.empty = (.ok (), m') := by
  induction head generalizing m with
  | zero =>
    have hzero : k = 0 := Nat.le_zero.1 hle
    subst hzero
    exact ⟨m, h⟩
  | succ head ih =>
    rcases Nat.lt_or_eq_of_le hle with hlt | rfl
    · obtain ⟨m', hmade, -⟩ := Entry.enterAll_append_ok.1 h
      exact ih (Nat.le_of_lt_succ hlt) hmade
    · exact ⟨m, h⟩

/-- It processes the next block, if the entries up to there can be made. -/
theorem indexBlock_underway (head : Nat)
    (hlive : ∀ request e, request.isLive → live request = .error e → e.isStoreFailure = false)
    (hs : Underway chain false k s)
    (hnext : ∃ m, Entry.enterAll (chain.through (k + 1)) Memory.empty = (.ok (), m))
    (interval : Nat) (caller : String) :
    ∃ s', Program.run (Surroundings.undisturbed chain live head).answer
        (indexBlock ⟨interval, Observer.standard caller⟩ (asked (chain.block (k + 1)) (k + 1))) s =
          (.ok (), s') ∧ Underway chain false (k + 1) s' := by
  obtain ⟨m, hnext⟩ := hnext
  have hat : (Frame.uncancelled chain live head).At s := ⟨hs.world, hs.sound⟩
  have hfaithful := (offers_undisturbed chain live head).faithful
  have henters : Enters (Frame.uncancelled chain live head) chain.given .strict
      (Entry.ofBlock chain.given (asked (chain.block (k + 1)) (k + 1)))
      (indexBlock ⟨interval, Observer.standard caller⟩ (asked (chain.block (k + 1)) (k + 1)))
      (fun a _ => a = ()) s :=
    (indexBlock_enters hfaithful hat interval caller _).weaken fun _ _ _ => rfl
  obtain ⟨hresult, hhistory⟩ := henters.run (calm_undisturbed hlive)
  -- the entries of the block can be made where those before it have been
  have hsplit : Entry.enterAll (chain.through (k + 1)) Memory.empty =
      Entry.enterAll (chain.entries (k + 1)) s.memory.indexed := Entry.enterAll_append hs.made
  have hfits : ∀ entry ∈ Entry.ofBlock chain.given (asked (chain.block (k + 1)) (k + 1)),
      entry.Fits := fun entry he => (Entry.belongs_ofBlock he).fits
  have hindexed : Entry.enterAll (chain.entries (k + 1)) s.memory.history.indexed = _ :=
    Entry.enterAll_indexed hs.sound.memory.history hfits
  rw [Store.Memory.indexed_history, ← hsplit, hnext] at hindexed
  obtain ⟨hok, hmade⟩ := Prod.mk.inj hindexed
  rw [← hok] at hresult
  have hend := henters.at_end
  generalize Program.run _ _ s = result at hresult hhistory hend ⊢
  obtain ⟨r, s'⟩ := result
  cases hresult
  refine ⟨s', rfl, hend.sound, hend.holds, ?_⟩
  rw [hnext, hmade, ← hhistory, Store.Memory.indexed_history]

/-- It scans the next block. -/
theorem advance_underway
    (hlive : ∀ request e, request.isLive → live request = .error e → e.isStoreFailure = false)
    (hs : Underway chain false k s) (hle : k + 1 ≤ head)
    (hnext : ∃ m, Entry.enterAll (chain.through (k + 1)) Memory.empty = (.ok (), m))
    (interval : Nat) (caller : String) :
    ∃ s', Program.run (Surroundings.undisturbed chain live head).answer
        (advance ⟨interval, Observer.standard caller⟩ (k + 1)) s =
          (.ok (.scanning (k + 2)), s') ∧ Underway chain false (k + 1) s' := by
  have hnode : (Surroundings.undisturbed chain live head).node (.block (k + 1)) s.world =
      (.ok (some (chain.block (k + 1))), s.world) := if_pos hle
  obtain ⟨s', hblock, hs'⟩ := indexBlock_underway head hlive hs hnext interval caller
  rw [run_advance_of_block _ hs.world hnode, run_scanBlock_of_ok _ hblock]
  simp only [settle, Program.bind_eq, Program.pure_eq]
  split
  · exact moveTo_done_underway live head hs' (k + 1) (.scanning (k + 2))
  · exact ⟨s', rfl, hs'⟩

/-- Past the head it is cancelled, and that ends it. -/
theorem advance_at_head (live : Answers) (hs : Underway chain false head s) (setup : Setup) :
    ∃ s' s'', Program.run (Surroundings.undisturbed chain live head).answer
        (advance setup (head + 1)) s = (.ok (.scanning (head + 1)), s') ∧
      Program.run (Surroundings.undisturbed chain live head).answer
        (advance setup (head + 1)) s' = (.ok (.stopped head), s'') ∧
      Underway chain true head s'' := by
  have hnode : (Surroundings.undisturbed chain live head).node (.block (head + 1)) s.world =
      (.ok none, true) := if_neg (by omega)
  rw [run_advance_of_absent _ hs.world hnode]
  have hwaiting : Underway chain true head { s with world := true } :=
    ⟨hs.sound.withWorld true, rfl, hs.made⟩
  obtain ⟨s', hmove, hs'⟩ := moveTo_done_underway live head hwaiting (head + 1 - 1)
    (.scanning (head + 1))
  obtain ⟨s'', hend, hs''⟩ := moveTo_done_underway live head hs' (head + 1 - 1)
    (.stopped (head + 1 - 1))
  refine ⟨s', s'', hmove, ?_, hs''⟩
  rw [run_advance_of_cancelled _ hs'.world]
  exact hend

/-- So it gets to the head, if the entries of all blocks up to there can be made. -/
theorem scan_underway
    (hlive : ∀ request e, request.isLive → live request = .error e → e.isStoreFailure = false)
    {m : Memory} (hall : Entry.enterAll (chain.through head) Memory.empty = (.ok (), m))
    (interval : Nat) (caller : String) (hs : Underway chain false k s) {left : Nat}
    (hleft : k + left = head) :
    ∃ s', Program.run (Surroundings.undisturbed chain live head).answer
        (scan ⟨interval, Observer.standard caller⟩ (left + 2) (k + 1)) s =
          (.ok (.stopped head), s') ∧ Underway chain true head s' := by
  induction left generalizing k s with
  | zero =>
    have hk : k = head := hleft
    subst hk
    obtain ⟨s', s'', hwait, hend, hs''⟩ :=
      advance_at_head live hs ⟨interval, Observer.standard caller⟩
    refine ⟨s'', ?_, hs''⟩
    unfold scan
    rw [Program.bind_eq, Program.run_bind, hwait]
    unfold scan
    simp only [Program.bind_eq, Program.run_bind, hend]
    rfl
  | succ left ih =>
    have hle : k + 1 ≤ head := by omega
    have hnext := enterAll_through hle hall
    obtain ⟨s', hround, hs'⟩ := advance_underway hlive hs hle hnext interval caller
    have hrest : k + 1 + left = head := by omega
    obtain ⟨s'', hscan, hs''⟩ := ih hs' hrest
    refine ⟨s'', ?_, hs''⟩
    unfold scan
    rw [Program.bind_eq, Program.run_bind, hround]
    exact hscan

/-- The undisturbed run ends at the head, if the entries of all blocks up to there can be made. -/
theorem undisturbed_endsAtHead
    (hlive : ∀ request e, request.isLive → live request = .error e → e.isStoreFailure = false)
    {m : Memory} (hall : Entry.enterAll (chain.through head) Memory.empty = (.ok (), m))
    (interval : Nat) (caller : String) :
    ∃ s', EndsAtHead (.undisturbed chain live head) ⟨interval, Observer.standard caller⟩ (head + 2)
      head ⟨false, Memory.empty, Cache.empty⟩ s' := by
  obtain ⟨s', hscan, hs'⟩ :=
    scan_underway hlive hall interval caller (underway_empty chain) (Nat.zero_add head)
  refine ⟨s', ?_, ?_⟩
  · -- there is no checkpoint yet, so that it starts with the first block
    show Program.run _ (launch _ none (head + 2)) _ = _
    unfold launch
    obtain ⟨-, hstart⟩ := start_reads (.undisturbed chain live head)
      ⟨false, Memory.empty, Cache.empty⟩
    rw [Program.bind_eq, Program.run_bind, hstart]
    exact hscan
  · have hmissing : ¬head + 1 ≤ head := by omega
    simp only [Surroundings.undisturbed, if_neg hmissing]

end

/-! ## Resumption -/

/-- Runs are started after the checkpoint and cut short wherever it may be, on a store that was
empty at first and against a node that gives a chain. When a last run ends at the head, the store
has what it would have after any single run that ends there, and there is such a run, which nothing
disturbs. -/
theorem resumed_like_undisturbed {env : Surroundings ω} {resting : ω → ω → Prop} {chain : Chain}
    {available : ω → Nat → Prop} (hoffers : Offers env resting chain available)
    {s s' : Situation ω} (hs : Reachable env resting (· = none) s) {world : ω}
    (hrest : resting s.world world) {interval : Nat} {caller : String} {rounds head : Nat}
    (hend : EndsAtHead env ⟨interval, Observer.standard caller⟩ rounds head
      ⟨world, s.memory, Cache.empty⟩ s') :
    (∀ {ω' : Type} {env' : Surroundings ω'} {resting' : ω' → ω' → Prop}
        {available' : ω' → Nat → Prop} {world' : ω'} {interval' : Nat} {caller' : String}
        {rounds' : Nat} {s'' : Situation ω'}, Offers env' resting' chain available' →
      EndsAtHead env' ⟨interval', Observer.standard caller'⟩ rounds' head
        ⟨world', Memory.empty, Cache.empty⟩ s'' →
      s'.memory.indexed = s''.memory.indexed) ∧
    ∀ live : Answers,
      (∀ request e, request.isLive → live request = .error e → e.isStoreFailure = false) →
      ∀ interval' caller', ∃ s'',
        EndsAtHead (.undisturbed chain live head) ⟨interval', Observer.standard caller'⟩ (head + 2)
          head ⟨false, Memory.empty, Cache.empty⟩ s'' ∧
        s'.memory.indexed = s''.memory.indexed := by
  obtain ⟨k, hresumable⟩ := hs.resumable hoffers
  have hlast : Resumable chain available k ⟨world, s.memory, Cache.empty⟩ :=
    hresumable.move (sound_of_wellFormed hresumable.sound.memory world) rfl
      fun number hnumber => hoffers.resting s.world world number hrest hnumber
  have hmade := hend.made hoffers hlast
  -- all runs that end there have made the same entries
  have hsame : ∀ {ω' : Type} {env' : Surroundings ω'} {resting' : ω' → ω' → Prop}
      {available' : ω' → Nat → Prop} {world' : ω'} {interval' : Nat} {caller' : String}
      {rounds' : Nat} {s'' : Situation ω'}, Offers env' resting' chain available' →
      EndsAtHead env' ⟨interval', Observer.standard caller'⟩ rounds' head
        ⟨world', Memory.empty, Cache.empty⟩ s'' →
      s'.memory.indexed = s''.memory.indexed := by
    intro ω' env' resting' available' world' interval' caller' rounds' s'' hoffers' hend'
    have hmade' := hend'.made hoffers' (resumable_empty world')
    rw [hmade] at hmade'
    exact (Prod.mk.inj hmade').2
  refine ⟨hsame, fun live hlive interval' caller' => ?_⟩
  obtain ⟨s'', hend''⟩ := undisturbed_endsAtHead hlive hmade interval' caller'
  exact ⟨s'', hend'', hsame (offers_undisturbed chain live head) hend''⟩

/-- A chain with one transfer, of which nothing is known at present. -/
def oneTransfer : Surroundings Bool :=
  .undisturbed ⟨fun _ => transferring, fun _ => []⟩ (.lone transferring (.node "closed")) 1

/-- How things stand on it at the moments of a run on an empty store. -/
def firstMoments : List (Situation Bool) :=
  (launch ⟨1, Observer.standard "caller"⟩ none 3).moments oneTransfer.answer
    ⟨false, Memory.empty, Cache.empty⟩

/-- The run is cut short before its operation. -/
def cutShort : Situation Bool :=
  firstMoments.getD 8 ⟨false, Memory.empty, Cache.empty⟩

/-- Another run goes on from there. -/
def resumed : Except Error Position × Situation Bool :=
  (launch ⟨1, Observer.standard "caller"⟩ none 3).run oneTransfer.side
    ⟨false, cutShort.memory, Cache.empty⟩

theorem resumed_transfer_like_undisturbed :
    cutShort.memory.transactions.length = 1 ∧ cutShort.memory.operations.length = 0 ∧
      EndsAtHead oneTransfer ⟨1, Observer.standard "caller"⟩ 3 1
        ⟨false, cutShort.memory, Cache.empty⟩ resumed.2 ∧
      ∃ s', EndsAtHead oneTransfer ⟨1, Observer.standard "caller"⟩ 3 1
          ⟨false, Memory.empty, Cache.empty⟩ s' ∧
        resumed.2.memory.indexed = s'.memory.indexed := by
  have hoffers := offers_undisturbed ⟨fun _ => transferring, fun _ => []⟩
    (.lone transferring (.node "closed")) 1
  have hlength : 8 < firstMoments.length := by decide +kernel
  have hmoment : cutShort ∈ firstMoments := by
    unfold cutShort
    rw [List.getD_eq_getElem?_getD, List.getElem?_eq_getElem hlength]
    exact List.getElem_mem hlength
  have hrest : (fun _ _ : Bool => True) false false := trivial
  have hcut : Reachable oneTransfer (fun _ _ => True) (· = none) cutShort :=
    .run 1 3 "caller" (.empty false) hrest rfl hmoment
  -- the errors of a run have no decidable equality, its positions have
  have hstopped : resumed.1.toOption = some (.stopped 1) := by decide +kernel
  have hend : EndsAtHead oneTransfer ⟨1, Observer.standard "caller"⟩ 3 1
      ⟨false, cutShort.memory, Cache.empty⟩ resumed.2 := by
    refine ⟨Prod.ext ?_ rfl, rfl⟩
    show resumed.1 = _
    cases hresult : resumed.1 with
    | error e =>
      rw [hresult] at hstopped
      cases hstopped
    | ok position =>
      rw [hresult] at hstopped
      cases hstopped
      rfl
  have hrest' : (fun _ _ : Bool => True) cutShort.world false := trivial
  obtain ⟨-, hundisturbed⟩ := resumed_like_undisturbed hoffers hcut hrest' hend
  obtain ⟨s', hend', hsame⟩ := hundisturbed (.lone transferring (.node "closed"))
    (fun request e _ => Answers.lone_error rfl request e) 1 "caller"
  exact ⟨by decide +kernel, by decide +kernel, hend, s', hend', hsame⟩

end ChainIndex.Scan
