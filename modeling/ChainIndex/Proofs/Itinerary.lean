import ChainIndex.Proofs.CheckpointSoundness
import ChainIndex.Proofs.Shutdown
import ChainIndex.Proofs.Stages
import Mathlib.Data.List.Chain

/-!
# The itinerary of a scan

A scan goes from block to block, one round at a time. Its itinerary lists the rounds as legs, each
with the number of the block that it is at and the situation in which it begins. How a leg can end
follows from how its visit to the block goes, and from that what a whole scan comes to: which blocks
it asks for, which ones it has processed when it stops, and how far the checkpoint is behind when it
fails.
-/

namespace ChainIndex.Scan

open Program (Call)
open Store (Memory)

variable {ω : Type}

/-! ## Legs -/

/-- Whether a block was processed to a good end. -/
def Visit.isProcessed : Visit → Bool
  | .processed => true
  | .cancelled | .absent | .failed _ => false

/-- One round of a scan: the number of its block, and how things stand when it begins. -/
structure Leg (ω : Type) where
  number : Nat
  begun : Situation ω

namespace Leg

variable (env : Surroundings ω) (setup : Setup)

/-- How the visit to the block goes, and how things stand after it. -/
def visit (x : Leg ω) : Visit × Situation ω :=
  if env.cancelled x.begun.world then (.cancelled, x.begun)
  else
    let s := { x.begun with world := (env.node (.block x.number) x.begun.world).2 }
    match (env.node (.block x.number) x.begun.world).1 with
    | .error e => (.failed e, s)
    | .ok none => (.absent, s)
    | .ok (some b) =>
      match env.process setup (asked b x.number) s with
      | (.error e, s) => (.failed e, s)
      | (.ok (), s) => (.processed, s)

/-- What the round comes to. -/
def result (x : Leg ω) : Except Error Position × Situation ω :=
  (advance setup x.number).run env.side x.begun

/-- The calls of the round. -/
def calls (x : Leg ω) : List (Call interface) :=
  (advance setup x.number).calls env.side.answering x.begun

/-- A leg begins where another one leads. -/
def Follows (x y : Leg ω) : Prop :=
  x.result env setup = (.ok (.scanning y.number), y.begun)

/-- A block that was processed is followed by the next one, and one that was not there by itself. -/
def Leads (x y : Leg ω) : Prop :=
  ((x.visit env setup).1 = .processed ∧ y.number = x.number + 1) ∨
    ((x.visit env setup).1 = .absent ∧ y.number = x.number)

end Leg

/-- The legs of a scan. -/
def itinerary (env : Surroundings ω) (setup : Setup) :
    (rounds cursor : Nat) → Situation ω → List (Leg ω)
  | 0, _, _ => []
  | rounds + 1, cursor, s =>
    ⟨cursor, s⟩ ::
      match (advance setup cursor).run env.side s with
      | (.ok (.scanning cursor), s) => itinerary env setup rounds cursor s
      | _ => []

/-! ## Visits -/

section

variable {env : Surroundings ω} {setup : Setup}

/-- A visit runs as the leg says. -/
theorem run_visit (x : Leg ω) :
    Program.run env.answer (visit setup x.number) x.begun =
      (.ok (x.visit env setup).1, (x.visit env setup).2) := by
  show Program.run env.answer (if env.cancelled x.begun.world then _ else _) x.begun = _
  unfold Leg.visit
  split
  · rfl
  show Program.run env.answer
    (((Program.ofExcept (env.node (.block x.number) x.begun.world).1).attempt).bind _)
    { x.begun with world := (env.node (.block x.number) x.begun.world).2 } = _
  cases (env.node (.block x.number) x.begun.world).1 with
  | error e => rfl
  | ok found =>
    cases found with
    | none => rfl
    | some b =>
      show Program.run env.answer ((indexBlock setup (asked b x.number)).attempt.bind _) _ = _
      rw [Program.run_bind, Program.run_attempt]
      simp only [Surroundings.process, Procedure.run]
      rcases Program.run env.answer (indexBlock setup (asked b x.number))
        { x.begun with world := (env.node (.block x.number) x.begun.world).2 } with ⟨_ | _, s'⟩
      · rfl
      · rfl

/-- What follows from the visit is what a leg comes to. -/
theorem Leg.result_eq (x : Leg ω) :
    x.result env setup =
      Program.run env.answer (settle setup x.number (x.visit env setup).1)
        (x.visit env setup).2 := by
  show Program.run env.answer (advance setup x.number) x.begun = _
  rw [advance_eq, Program.run_bind, run_visit]

theorem Leg.calls_eq (x : Leg ω) :
    x.calls env setup =
      (Scan.visit setup x.number).calls env.answer x.begun ++
        (settle setup x.number (x.visit env setup).1).calls env.answer
          (x.visit env setup).2 := by
  show (advance setup x.number).calls env.answer x.begun = _
  rw [advance_eq, Program.calls_bind, run_visit]

/-! ## What a visit leaves alone -/

theorem Request.withinBlock_of_isProcessing {request : Request} (h : request.isProcessing) :
    request.withinBlock := by
  cases request with
  | store request =>
    cases request with
    | putConfig => cases h
    | _ => rfl
  | node request =>
    cases request with
    | block => cases h
    | _ => rfl
  | cache | cancelled => rfl

/-- A visit changes the world alone, or does what the processing of a block does. -/
theorem Leg.visit_cases (env : Surroundings ω) (setup : Setup) (x : Leg ω) :
    (∃ world, (x.visit env setup).2 = { x.begun with world } ∧
        (x.visit env setup).1 ≠ .processed) ∨
      ∃ b world,
        (x.visit env setup).2 =
            (env.process setup (asked b x.number) { x.begun with world }).2 ∧
          ((x.visit env setup).1 = .processed →
            (env.process setup (asked b x.number) { x.begun with world }).1 = .ok ()) := by
  unfold Leg.visit
  split
  · exact .inl ⟨x.begun.world, rfl, Visit.noConfusion⟩
  dsimp only
  generalize (env.node (.block x.number) x.begun.world).2 = world
  split
  · exact .inl ⟨world, rfl, Visit.noConfusion⟩
  · exact .inl ⟨world, rfl, Visit.noConfusion⟩
  · rename_i b _
    refine .inr ⟨b, world, ?_⟩
    split
    · rename_i hprocess
      rw [hprocess]
      exact ⟨rfl, Visit.noConfusion⟩
    · rename_i hprocess
      rw [hprocess]
      exact ⟨rfl, fun _ => rfl⟩

/-- A block is processed without the checkpoint. -/
theorem process_checkpoint (env : Surroundings ω) (interval : Nat) (caller : String) (b : Block)
    (s : Situation ω) :
    (env.process ⟨interval, Observer.standard caller⟩ b s).2.checkpoint = s.checkpoint := by
  refine (indexBlock_processes interval caller b).keeps
    (M := fun s' : Situation ω => s'.checkpoint = s.checkpoint) ?_ rfl
  intro request s' hprocessing hs'
  have hconfigs := Checkpoint.configs_answer env
    (Request.withinBlock_of_isProcessing hprocessing) s'
  rw [← hs']
  exact congrArg (·.lookup Checkpoint.key) hconfigs

/-- A block is only processed to a good end if its number fits the column. -/
theorem process_limit {b : Block} {s : Situation ω} (h : (env.process setup b s).1 = .ok ()) :
    (b.number : Int) ≤ int64Max := by
  have hrun : Program.run env.answer (indexBlock setup b) s =
      (.ok (), (env.process setup b s).2) := Prod.ext h rfl
  obtain ⟨_, s₁, hblock, -⟩ := Program.of_run_bind hrun
  obtain ⟨record, s₂, hrecord, -⟩ := Program.of_run_bind hblock
  exact (Entry.block_record (Program.of_run_ofExcept hrecord).1).2

theorem Leg.visit_checkpoint (env : Surroundings ω) (interval : Nat) (caller : String)
    (x : Leg ω) :
    (x.visit env ⟨interval, Observer.standard caller⟩).2.checkpoint = x.begun.checkpoint := by
  rcases x.visit_cases env ⟨interval, Observer.standard caller⟩ with
    ⟨world, hend, -⟩ | ⟨b, world, hend, -⟩
  · rw [hend]
    rfl
  · rw [hend, process_checkpoint]
    rfl

theorem Leg.visit_limit {x : Leg ω} (h : (x.visit env setup).1 = .processed) :
    (x.number : Int) ≤ int64Max := by
  rcases x.visit_cases env setup with ⟨world, -, hv⟩ | ⟨b, world, -, hok⟩
  · exact absurd h hv
  · exact process_limit (hok h)

/-- So the next number is a word. -/
theorem Leg.next_le_word64Max {x : Leg ω} (h : (x.visit env setup).1 = .processed) :
    x.number + 1 ≤ word64Max := by
  have hlimit := Leg.visit_limit h
  unfold int64Max at hlimit
  unfold word64Max
  omega

/-! ## How a leg can end -/

/-- How a leg at a block can end: by how the visit has gone, with what result, and with which
checkpoint, from the one that was there before. -/
inductive Ends (interval number : Nat) (before : Option String) :
    Visit → Except Error Position → Option String → Prop where
  | failed (v : Visit) (e : Error) : Ends interval number before v (.error e) before
  | stopped {v : Visit} (hv : v ≠ .processed) :
      Ends interval number before v (.ok (.stopped (number - 1)))
        (some (Checkpoint.text (number - 1)))
  | waiting : Ends interval number before .absent (.ok (.scanning number))
      (some (Checkpoint.text (number - 1)))
  | saved (hdue : 0 < interval ∧ number % interval = 0) :
      Ends interval number before .processed (.ok (.scanning (number + 1)))
        (some (Checkpoint.text number))
  | passed (hdue : ¬(0 < interval ∧ number % interval = 0)) :
      Ends interval number before .processed (.ok (.scanning (number + 1))) before

/-- A leg that leads on has found no block and moved the checkpoint up to it, or has processed the
block and moved the checkpoint if that was due. -/
theorem Ends.onwards {interval number next : Nat} {before after : Option String} {v : Visit}
    (h : Ends interval number before v (.ok (.scanning next)) after) :
    (v = .absent ∧ next = number ∧ after = some (Checkpoint.text (number - 1))) ∨
      (v = .processed ∧ next = number + 1 ∧
        after = if 0 < interval ∧ number % interval = 0 then some (Checkpoint.text number)
          else before) := by
  cases h with
  | waiting => exact .inl ⟨rfl, rfl, rfl⟩
  | saved hdue => exact .inr ⟨rfl, rfl, (if_pos hdue).symm⟩
  | passed hdue => exact .inr ⟨rfl, rfl, (if_neg hdue).symm⟩

theorem Ends.stopping {interval number last : Nat} {before after : Option String} {v : Visit}
    (h : Ends interval number before v (.ok (.stopped last)) after) :
    v ≠ .processed ∧ last = number - 1 ∧ after = some (Checkpoint.text last) := by
  cases h with
  | stopped hv => exact ⟨hv, rfl, rfl⟩

theorem Ends.failing {interval number : Nat} {before after : Option String} {v : Visit} {e : Error}
    (h : Ends interval number before v (.error e) after) : after = before := by
  cases h with
  | failed => rfl

/-- Moving the checkpoint moves it, or fails and leaves it where it is. -/
theorem moveTo_checkpoint (env : Surroundings ω) (number : Nat) (s : Situation ω) :
    (∃ s', Program.run env.answer (Checkpoint.moveTo number) s = (.ok (), s') ∧
        s'.checkpoint = some (Checkpoint.text number)) ∨
      ∃ e s', Program.run env.answer (Checkpoint.moveTo number) s = (.error e, s') ∧
        s'.checkpoint = s.checkpoint := by
  have hmoving := moveTo_moving env number s
  generalize (Checkpoint.moveTo number).moments env.answer s = moments at hmoving
  generalize Program.run env.answer (Checkpoint.moveTo number) s = result at hmoving ⊢
  cases hmoving with
  | unread | unwritten => exact .inr ⟨_, _, rfl, rfl⟩
  | there hread hthere => exact .inl ⟨_, rfl, hthere⟩
  | written => exact .inl ⟨_, rfl, Store.Memory.lookup_putEntry_self _ _ _⟩

/-- To close a round either moves the checkpoint or fails. -/
theorem close_ends (env : Surroundings ω) {interval cursor number : Nat} {v : Visit}
    {position : Position} (s : Situation ω)
    (hmoved : Ends interval cursor s.checkpoint v (.ok position)
      (some (Checkpoint.text number))) :
    Ends interval cursor s.checkpoint v (Program.run env.answer (close number position) s).1
      (Program.run env.answer (close number position) s).2.checkpoint := by
  unfold close
  rw [Program.run_bind]
  rcases moveTo_checkpoint env number s with ⟨s', hrun, hs'⟩ | ⟨e, s', hrun, hs'⟩
  · rw [hrun]
    show Ends interval cursor s.checkpoint v (.ok position) s'.checkpoint
    rwa [hs']
  · rw [hrun]
    show Ends interval cursor s.checkpoint v (.error e) s'.checkpoint
    rw [hs']
    exact .failed v e

theorem settle_ends (env : Surroundings ω) (setup : Setup) (cursor : Nat) (v : Visit)
    (s : Situation ω) :
    Ends setup.interval cursor s.checkpoint v
      (Program.run env.answer (settle setup cursor v) s).1
      (Program.run env.answer (settle setup cursor v) s).2.checkpoint := by
  cases v with
  | cancelled => exact close_ends env s (.stopped Visit.noConfusion)
  | absent => exact close_ends env s .waiting
  | failed e =>
    show Ends setup.interval cursor s.checkpoint _ (Program.run env.answer (breakOff cursor e) s).1
      (Program.run env.answer (breakOff cursor e) s).2.checkpoint
    unfold breakOff
    split
    · show Ends setup.interval cursor s.checkpoint _
        (Program.run env.answer (if env.cancelled s.world then _ else _) s).1
        (Program.run env.answer (if env.cancelled s.world then _ else _) s).2.checkpoint
      split
      · exact close_ends env s (.stopped Visit.noConfusion)
      · exact .failed _ e
    · exact .failed _ e
  | processed =>
    simp only [settle, Program.bind_eq, Program.pure_eq]
    split
    · exact close_ends env s (.saved ‹_›)
    · exact .passed ‹_›

theorem Leg.ends (env : Surroundings ω) (interval : Nat) (caller : String) (x : Leg ω) :
    Ends interval x.number x.begun.checkpoint
      (x.visit env ⟨interval, Observer.standard caller⟩).1
      (x.result env ⟨interval, Observer.standard caller⟩).1
      (x.result env ⟨interval, Observer.standard caller⟩).2.checkpoint := by
  rw [Leg.result_eq, ← x.visit_checkpoint env interval caller]
  exact settle_ends env ⟨interval, Observer.standard caller⟩ x.number _ _

/-! ## From leg to leg -/

/-- A scan goes on from where its first leg leads, or ends with it. -/
theorem run_scan_succ (env : Surroundings ω) (setup : Setup) (rounds : Nat) (x : Leg ω) :
    (scan setup (rounds + 1) x.number).run env.side x.begun =
      match x.result env setup with
      | (.ok (.scanning next), s) => (scan setup rounds next).run env.side s
      | (.ok (.stopped last), s) => (.ok (.stopped last), s)
      | (.error e, s) => (.error e, s) := by
  show Program.run env.answer ((advance setup x.number).bind _) x.begun = _
  rw [Program.run_bind]
  unfold Leg.result Procedure.run
  rcases Program.run env.side.answering (advance setup x.number) x.begun with ⟨_ | _ | _, s⟩
  · rfl
  · rfl
  · rfl

theorem itinerary_succ (env : Surroundings ω) (setup : Setup) (rounds : Nat) (x : Leg ω) :
    itinerary env setup (rounds + 1) x.number x.begun =
      x :: match x.result env setup with
        | (.ok (.scanning next), s) => itinerary env setup rounds next s
        | _ => [] :=
  rfl

/-- The first leg begins where the scan does. -/
theorem itinerary_head (env : Surroundings ω) (setup : Setup) (rounds cursor : Nat)
    (s : Situation ω) : ∀ x ∈ (itinerary env setup rounds cursor s).head?, x = ⟨cursor, s⟩ := by
  cases rounds with
  | zero => exact nofun
  | succ rounds =>
    intro x hx
    exact (Option.some.inj hx).symm

/-- Every leg begins where the one before it leads. -/
theorem itinerary_follows (env : Surroundings ω) (setup : Setup) (rounds cursor : Nat)
    (s : Situation ω) : (itinerary env setup rounds cursor s).IsChain (Leg.Follows env setup) := by
  induction rounds generalizing cursor s with
  | zero => exact .nil
  | succ rounds ih =>
    refine List.isChain_cons.2 ⟨?_, ?_⟩
    · intro y hy
      show (advance setup cursor).run env.side s = _
      revert hy
      split
      · rename_i next s' hrun
        intro hy
        rw [itinerary_head env setup rounds next s' y hy]
        exact hrun
      · exact nofun
    · split
      · exact ih _ _
      · exact .nil

/-- The calls of a scan are those of its legs. -/
theorem calls_scan (env : Surroundings ω) (setup : Setup) (rounds cursor : Nat) (s : Situation ω) :
    (scan setup rounds cursor).calls env.side.answering s =
      (itinerary env setup rounds cursor s).flatMap (·.calls env setup) := by
  induction rounds generalizing cursor s with
  | zero => rfl
  | succ rounds ih =>
    rw [scan, Program.bind_eq, Program.calls_bind, itinerary, List.flatMap_cons]
    congr 1
    unfold Procedure.run
    rcases Program.run env.side.answering (advance setup cursor) s with ⟨_ | _ | _, s'⟩
    · rfl
    · exact ih _ s'
    · rfl

/-- How a leg ends that another one follows. -/
theorem Leg.Follows.onwards {x y : Leg ω}
    (h : x.Follows env ⟨interval, Observer.standard caller⟩ y) :
    ((x.visit env ⟨interval, Observer.standard caller⟩).1 = .absent ∧ y.number = x.number ∧
        y.begun.checkpoint = some (Checkpoint.text (x.number - 1))) ∨
      ((x.visit env ⟨interval, Observer.standard caller⟩).1 = .processed ∧
        y.number = x.number + 1 ∧
        y.begun.checkpoint =
          if 0 < interval ∧ x.number % interval = 0 then some (Checkpoint.text x.number)
          else x.begun.checkpoint) := by
  have hends := x.ends env interval caller
  have hresult : x.result env ⟨interval, Observer.standard caller⟩ = _ := h
  rw [hresult] at hends
  exact hends.onwards

theorem Leg.Follows.leads {x y : Leg ω}
    (h : x.Follows env ⟨interval, Observer.standard caller⟩ y) :
    x.Leads env ⟨interval, Observer.standard caller⟩ y := by
  rcases h.onwards with ⟨hv, hnumber, -⟩ | ⟨hv, hnumber, -⟩
  · exact .inr ⟨hv, hnumber⟩
  · exact .inl ⟨hv, hnumber⟩

/-! ## Where a scan stops -/

/-- The numbers of the blocks that were processed on some legs. -/
def processedOn (env : Surroundings ω) (setup : Setup) (legs : List (Leg ω)) : List Nat :=
  (legs.filter fun x => (x.visit env setup).1.isProcessed).map (·.number)

theorem processedOn_cons (env : Surroundings ω) (setup : Setup) (x : Leg ω) (legs : List (Leg ω)) :
    processedOn env setup (x :: legs) =
      (x.visit env setup).1.noted x.number (processedOn env setup legs) := by
  unfold processedOn
  rw [List.filter_cons]
  cases (x.visit env setup).1 with
  | processed => rfl
  | cancelled | absent | failed => rfl

/-- A scan that stops has processed every block from its first one to its last one, and the
checkpoint is at the last. -/
theorem scan_stops (rounds : Nat) {x : Leg ω} {last : Nat} {s' : Situation ω}
    (hpos : 1 ≤ x.number) (hword : x.number ≤ word64Max)
    (h : (scan ⟨interval, Observer.standard caller⟩ rounds x.number).run env.side x.begun =
      (.ok (.stopped last), s')) :
    x.number ≤ last + 1 ∧ last ≤ word64Max ∧ s'.checkpoint = some (Checkpoint.text last) ∧
      processedOn env ⟨interval, Observer.standard caller⟩
          (itinerary env ⟨interval, Observer.standard caller⟩ rounds x.number x.begun) =
        List.range' x.number (last + 1 - x.number) := by
  induction rounds generalizing x with
  | zero => cases h
  | succ rounds ih =>
    have hends := x.ends env interval caller
    rw [run_scan_succ] at h
    rw [itinerary_succ, processedOn_cons]
    generalize x.result env ⟨interval, Observer.standard caller⟩ = result at hends h ⊢
    rcases result with ⟨e | next | reached, s₁⟩
    · cases h
    · -- the rest of the scan is known from the induction
      rcases hends.onwards with ⟨hv, rfl, -⟩ | ⟨hv, rfl, -⟩
      · rw [hv]
        exact ih (x := ⟨x.number, s₁⟩) hpos hword h
      · obtain ⟨hle, hlast, hcheckpoint, hprocessed⟩ :
            x.number + 1 ≤ last + 1 ∧ last ≤ word64Max ∧
              s'.checkpoint = some (Checkpoint.text last) ∧
              processedOn env ⟨interval, Observer.standard caller⟩
                  (itinerary env ⟨interval, Observer.standard caller⟩ rounds (x.number + 1) s₁) =
                List.range' (x.number + 1) (last + 1 - (x.number + 1)) :=
          ih (x := ⟨x.number + 1, s₁⟩) (Nat.le_add_left 1 _) (Leg.next_le_word64Max hv) h
        refine ⟨by omega, hlast, hcheckpoint, ?_⟩
        rw [hv]
        show x.number :: processedOn env _ (itinerary env _ rounds (x.number + 1) s₁) = _
        rw [hprocessed, ← List.range'_succ]
        congr 1
        omega
    · cases h
      obtain ⟨hv, rfl, hcheckpoint⟩ := hends.stopping
      refine ⟨by omega, by omega, hcheckpoint, ?_⟩
      rw [Visit.noted_of_ne hv, show x.number - 1 + 1 - x.number = 0 by omega]
      rfl

/-! ## Where a scan fails -/

/-- A checkpoint is stored that lies before a block, by no more than what has been processed since
it was last due. -/
def Trails (interval number : Nat) (s : Situation ω) : Prop :=
  ∃ c, Checkpoint.stored s.memory = .ok c ∧ c < number ∧ number - 1 - c ≤ (number - 1) % interval

theorem Trails.of_checkpoint {number : Nat} {s s' : Situation ω} (h : Trails interval number s)
    (hsame : s'.checkpoint = s.checkpoint) : Trails interval number s' := by
  obtain ⟨c, hstored, hlag⟩ := h
  refine ⟨c, ?_, hlag⟩
  rw [← hstored]
  unfold Checkpoint.stored
  rw [show s'.memory.configs.lookup Checkpoint.key = s.memory.configs.lookup Checkpoint.key from
    hsame]

/-- A checkpoint that has just been moved is right before the block. -/
theorem trails_of_moved {number : Nat} {s : Situation ω} (hpos : 1 ≤ number)
    (hword : number ≤ word64Max) (h : s.checkpoint = some (Checkpoint.text (number - 1))) :
    Trails interval number s := by
  have hstored : Checkpoint.stored s.memory = .ok (number - 1) :=
    Checkpoint.stored_of_text h (by omega)
  refine ⟨number - 1, hstored, by omega, ?_⟩
  rw [Nat.sub_self]
  exact Nat.zero_le _

/-- A scan that starts after the checkpoint has it right before its first block. -/
theorem trails_of_start {first : Nat} {s₀ s : Situation ω}
    (h : (Checkpoint.start none).run env.side s₀ = (.ok first, s)) (hpos : 1 ≤ first) :
    Trails interval first s := by
  obtain ⟨-, hrun⟩ := start_reads env s₀
  have hread : Program.run env.answer (Checkpoint.start none) s₀ = (.ok first, s) := h
  rw [hread] at hrun
  obtain ⟨hresult, rfl⟩ := Prod.mk.inj hrun
  split at hresult
  · cases hresult
  cases hstored : Checkpoint.stored s₀.memory with
  | error e =>
    rw [hstored] at hresult
    cases hresult
  | ok c =>
    rw [hstored] at hresult
    have hword := Checkpoint.stored_le hstored
    have hfirst : first = c.succ % (word64Max + 1) := Except.ok.inj hresult
    -- the checkpoint is not the greatest word, because zero would follow it
    have hnext : first = c + 1 := by
      rcases Nat.lt_or_eq_of_le hword with hless | rfl
      · rw [hfirst, Nat.mod_eq_of_lt (Nat.succ_lt_succ hless)]
      · rw [hfirst, Nat.succ_eq_add_one, Nat.mod_self] at hpos
        cases hpos
    refine ⟨c, hstored, by omega, ?_⟩
    rw [hnext, Nat.add_sub_cancel, Nat.sub_self]
    exact Nat.zero_le _

/-- When a block is passed and the checkpoint is not due, it is one block further behind. -/
theorem Trails.pass {number : Nat} {s : Situation ω} (h : Trails interval number s)
    (hinterval : 0 < interval) (hdue : number % interval ≠ 0) :
    Trails interval (number + 1) s := by
  obtain ⟨c, hstored, hlt, hlag⟩ := h
  refine ⟨c, hstored, by omega, ?_⟩
  -- the number is no multiple of the interval, so the remainder has grown by one
  have hpred : number - 1 + 1 = number := by omega
  have hmod : number % interval = (number - 1) % interval + 1 := by
    have hlt := Nat.mod_lt (number - 1) hinterval
    have hsum : number % interval = ((number - 1) % interval + 1) % interval := by
      rw [Nat.mod_add_mod, hpred]
    rcases Nat.lt_or_eq_of_le (Nat.succ_le_of_lt hlt) with hless | hfull
    · rw [hsum, Nat.mod_eq_of_lt hless]
    · rw [hsum, show (number - 1) % interval + 1 = interval from hfull, Nat.mod_self] at hdue
      exact absurd rfl hdue
  rw [Nat.add_sub_cancel]
  omega

/-- Where a scan fails, the checkpoint is less than an interval behind. -/
theorem scan_trails (hinterval : 0 < interval) (rounds : Nat) {x : Leg ω} {e : Error}
    {s' : Situation ω} (hpos : 1 ≤ x.number) (hword : x.number ≤ word64Max)
    (htrails : Trails interval x.number x.begun)
    (h : (scan ⟨interval, Observer.standard caller⟩ rounds x.number).run env.side x.begun =
      (.error e, s')) :
    ∃ y, (itinerary env ⟨interval, Observer.standard caller⟩ rounds x.number
        x.begun).getLast? = some y ∧ Trails interval y.number s' := by
  induction rounds generalizing x with
  | zero => cases h
  | succ rounds ih =>
    have hends := x.ends env interval caller
    rw [run_scan_succ] at h
    rw [itinerary_succ]
    generalize x.result env ⟨interval, Observer.standard caller⟩ = result at hends h ⊢
    rcases result with ⟨e' | next | reached, s₁⟩
    · cases h
      exact ⟨x, rfl, htrails.of_checkpoint hends.failing⟩
    · have hnext : 1 ≤ next ∧ next ≤ word64Max ∧ Trails interval next s₁ := by
        rcases hends.onwards with ⟨hv, rfl, hmoved⟩ | ⟨hv, rfl, hafter⟩
        · exact ⟨hpos, hword, trails_of_moved hpos hword hmoved⟩
        · have hword' := Leg.next_le_word64Max hv
          refine ⟨Nat.le_add_left 1 _, hword', ?_⟩
          by_cases hdue : x.number % interval = 0
          · rw [if_pos ⟨hinterval, hdue⟩] at hafter
            exact trails_of_moved (Nat.le_add_left 1 _) hword' hafter
          · rw [if_neg fun h => hdue h.2] at hafter
            exact (htrails.pass hinterval hdue).of_checkpoint hafter
      obtain ⟨hpos', hword', htrails'⟩ := hnext
      obtain ⟨y, hlast, hy⟩ := ih (x := ⟨next, s₁⟩) hpos' hword' htrails' h
      refine ⟨y, ?_, hy⟩
      rw [List.getLast?_cons]
      show some ((itinerary env _ rounds next s₁).getLast?.getD x) = some y
      rw [hlast]
      rfl
    · cases h

/-! ## What a scan asks for -/

/-- The block that a request is for. -/
def Request.block? : Request → Option Nat
  | .node (.block number) => some number
  | _ => none

theorem Request.block?_of_isProcessing {request : Request} (h : request.isProcessing) :
    request.block? = none := by
  cases request with
  | node request =>
    cases request with
    | block => cases h
    | _ => rfl
  | store | cache | cancelled => rfl

theorem Request.block?_of_isSettling {request : Request} (h : request.isSettling) :
    request.block? = none := by
  cases request with
  | node => cases h
  | store | cache | cancelled => rfl

/-- The blocks that some calls ask for. -/
def blocksOf (calls : List (Call interface)) : List Nat :=
  calls.filterMap fun call => Request.block? call.request

theorem blocksOf_append (calls more : List (Call interface)) :
    blocksOf (calls ++ more) = blocksOf calls ++ blocksOf more :=
  List.filterMap_append

/-- Blocks are not asked for while one is processed. -/
theorem blocksOf_indexBlock (answer : Program.Answering interface (Situation ω)) (b : Block)
    (s : Situation ω) :
    blocksOf ((indexBlock ⟨interval, Observer.standard caller⟩ b).calls answer s) = [] :=
  List.filterMap_eq_nil_iff.2 fun call hcall =>
    Request.block?_of_isProcessing
      ((indexBlock_processes interval caller b).allowed call hcall)

/-- A leg asks for its block once, unless the run was cancelled before it. -/
theorem Leg.blocksOf_calls (env : Surroundings ω) (interval : Nat) (caller : String) (x : Leg ω) :
    blocksOf (x.calls env ⟨interval, Observer.standard caller⟩) =
      if env.cancelled x.begun.world then [] else [x.number] := by
  have hsettle : ∀ v s, blocksOf ((settle ⟨interval, Observer.standard caller⟩ x.number v).calls
      env.answer s) = [] := fun v s =>
    List.filterMap_eq_nil_iff.2 fun call hcall =>
      Request.block?_of_isSettling ((settle_heeds _ x.number v).allowed call hcall)
  rw [Leg.calls_eq, blocksOf_append, hsettle, List.append_nil]
  show blocksOf (Program.calls env.answer (if env.cancelled x.begun.world then _ else _)
    x.begun) = _
  split
  · rfl
  show x.number :: blocksOf (Program.calls env.answer
    (((Program.ofExcept (env.node (.block x.number) x.begun.world).1).attempt).bind _)
    { x.begun with world := (env.node (.block x.number) x.begun.world).2 }) = _
  congr 1
  cases (env.node (.block x.number) x.begun.world).1 with
  | error e => rfl
  | ok found =>
    cases found with
    | none => rfl
    | some b =>
      show blocksOf (Program.calls env.answer ((indexBlock _ (asked b x.number)).attempt.bind _)
        _) = _
      rw [Program.calls_bind, Program.calls_attempt, blocksOf_append, blocksOf_indexBlock,
        Program.run_attempt]
      generalize (Program.run env.answer _ _).1 = result
      cases result <;> rfl

/-! ## Waiting at the head -/

/-- How often some calls write to the config. -/
def writesOf (calls : List (Call interface)) : Nat :=
  calls.countP fun call => Request.isConfigWrite call.request

theorem writesOf_append (calls more : List (Call interface)) :
    writesOf (calls ++ more) = writesOf calls + writesOf more :=
  List.countP_append

theorem writesOf_of_quiet {calls : List (Call interface)}
    (h : ∀ call ∈ calls, Request.isConfigWrite call.request = false) : writesOf calls = 0 :=
  List.countP_eq_zero.2 fun call hcall => by simp [h call hcall]

theorem WritesLast.writesOf_le {limit : Nat} {calls : List (Call interface)}
    (h : WritesLast limit calls) : writesOf calls ≤ 1 := by
  obtain ⟨quiet, writes, rfl, hquiet, hone, -⟩ := h
  rw [writesOf_append, writesOf_of_quiet hquiet, Nat.zero_add]
  exact Nat.le_trans List.countP_le_length hone

/-- A checkpoint that is there is not written again. -/
theorem writesOf_moveTo_of_there {number : Nat} {s : Situation ω}
    (h : s.checkpoint = some (Checkpoint.text number)) :
    writesOf ((Checkpoint.moveTo number).calls env.answer s) = 0 := by
  unfold Checkpoint.moveTo
  rw [Program.bind_eq, Program.calls_bind, calls_store, writesOf_append, env.run_store]
  rw [show writesOf [⟨Request.store (.config Checkpoint.key), _⟩] = 0 from rfl, Nat.zero_add]
  cases hread : env.fault (.config Checkpoint.key) s.world with
  | mk fault world =>
    cases fault with
    | some detail =>
      rw [env.answer_of_fault hread]
      rfl
    | none =>
      rw [env.answer_of_no_fault hread]
      show writesOf (Program.calls env.answer
        (if s.checkpoint = some (Checkpoint.text number) then _ else _) _) = 0
      rw [if_pos h]
      rfl

/-- A leg that waits writes the checkpoint at most once, and not if it is there. -/
theorem Leg.writesOf_calls {x : Leg ω}
    (h : (x.visit env ⟨interval, Observer.standard caller⟩).1 = .absent) :
    writesOf (x.calls env ⟨interval, Observer.standard caller⟩) ≤ 1 ∧
      (x.begun.checkpoint = some (Checkpoint.text (x.number - 1)) →
        writesOf (x.calls env ⟨interval, Observer.standard caller⟩) = 0) := by
  have hsettle : ∀ s, (settle ⟨interval, Observer.standard caller⟩ x.number .absent).calls
      env.answer s = (Checkpoint.moveTo (x.number - 1)).calls env.answer s := fun s =>
    calls_close (x.number - 1) (.scanning x.number) s
  rw [Leg.calls_eq, h, hsettle, writesOf_append,
    writesOf_of_quiet (visit_quiet interval caller x.number x.begun), Nat.zero_add]
  refine ⟨(moveTo_writesLast (x.number - 1) _).writesOf_le, fun hthere => ?_⟩
  rw [← x.visit_checkpoint env interval caller] at hthere
  exact writesOf_moveTo_of_there hthere

/-- Legs that wait one after the other write the checkpoint once at most, and not if it is there. -/
theorem writesOf_waiting {legs : List (Leg ω)}
    (hfollows : legs.IsChain (Leg.Follows env ⟨interval, Observer.standard caller⟩))
    (hwait : ∀ x ∈ legs, (x.visit env ⟨interval, Observer.standard caller⟩).1 = .absent) :
    writesOf (legs.flatMap (·.calls env ⟨interval, Observer.standard caller⟩)) ≤ 1 ∧
      ((∀ x ∈ legs.head?, x.begun.checkpoint = some (Checkpoint.text (x.number - 1))) →
        writesOf (legs.flatMap (·.calls env ⟨interval, Observer.standard caller⟩)) = 0) := by
  induction legs with
  | nil => exact ⟨Nat.zero_le 1, fun _ => rfl⟩
  | cons x rest ih =>
    obtain ⟨hnext, hrest⟩ := List.isChain_cons.1 hfollows
    obtain ⟨-, hquiet⟩ := ih hrest fun y hy => hwait y (List.mem_cons_of_mem x hy)
    obtain ⟨hone, hnone⟩ := Leg.writesOf_calls (hwait x List.mem_cons_self)
    -- after the first of the legs the checkpoint is where the others want it
    have hthere : ∀ y ∈ rest.head?, y.begun.checkpoint = some (Checkpoint.text (y.number - 1)) := by
      intro y hy
      rcases (hnext y hy).onwards with ⟨-, hnumber, hmoved⟩ | ⟨hv, -, -⟩
      · rw [hnumber]
        exact hmoved
      · rw [hwait x List.mem_cons_self] at hv
        cases hv
    rw [List.flatMap_cons, writesOf_append, hquiet hthere, Nat.add_zero]
    exact ⟨hone, fun hfirst => hnone (hfirst x rfl)⟩

end

/-! ## The contract of a scan -/

/-- A scan goes block by block: it asks for its first block and, each time that a block has been
processed, for the next one; for the same one only if that was not there. When it stops, it has
processed the blocks from the first to the last in their order, and the checkpoint is at the last.
When it has started after the checkpoint and fails, the checkpoint is before the block at which it
fails, by less than an interval. And however often it waits at the head of the chain in a row, the
checkpoint is written once at most. -/
theorem scan_goes_block_by_block (env : Surroundings ω) (interval : Nat) (caller : String)
    (rounds : Nat) {first : Nat} (s : Situation ω) (hpos : 1 ≤ first)
    (hword : first ≤ word64Max) :
    let setup : Setup := ⟨interval, Observer.standard caller⟩
    let legs := itinerary env setup rounds first s
    let result := (scan setup rounds first).run env.side s
    ((scan setup rounds first).calls env.side.answering s = legs.flatMap (·.calls env setup) ∧
        (∀ x ∈ legs, blocksOf (x.calls env setup) =
          if env.cancelled x.begun.world then [] else [x.number]) ∧
        (∀ x ∈ legs.head?, x.number = first) ∧ legs.IsChain (Leg.Leads env setup)) ∧
      (∀ last, result.1 = .ok (.stopped last) →
        first ≤ last + 1 ∧ processedOn env setup legs = List.range' first (last + 1 - first) ∧
          Checkpoint.stored result.2.memory = .ok last) ∧
      (∀ s₀ e, (Checkpoint.start none).run env.side s₀ = (.ok first, s) → 0 < interval →
        result.1 = .error e →
          ∃ x c, legs.getLast? = some x ∧ Checkpoint.stored result.2.memory = .ok c ∧
            c < x.number ∧ x.number - 1 - c < interval) ∧
      ∀ waiting, waiting <:+: legs → (∀ x ∈ waiting, (x.visit env setup).1 = .absent) →
        writesOf (waiting.flatMap (·.calls env setup)) ≤ 1 := by
  intro setup legs result
  have hfollows : legs.IsChain (Leg.Follows env setup) :=
    itinerary_follows env setup rounds first s
  refine ⟨⟨calls_scan env setup rounds first s, ?_, ?_, ?_⟩, ?_, ?_, ?_⟩
  · exact fun x _ => x.blocksOf_calls env interval caller
  · intro x hx
    rw [itinerary_head env setup rounds first s x hx]
  · exact hfollows.imp fun x y h => h.leads
  · intro last hlast
    obtain ⟨hle, hmax, hcheckpoint, hprocessed⟩ :=
      scan_stops rounds (x := ⟨first, s⟩) hpos hword (Prod.ext hlast rfl)
    exact ⟨hle, hprocessed, Checkpoint.stored_of_text hcheckpoint hmax⟩
  · intro s₀ e hstart hinterval he
    have htrails : Trails interval first s := trails_of_start hstart hpos
    obtain ⟨x, hx, c, hstored, hlt, hlag⟩ :=
      scan_trails hinterval rounds (x := ⟨first, s⟩) hpos hword htrails (Prod.ext he rfl)
    exact ⟨x, c, hx, hstored, hlt, Nat.lt_of_le_of_lt hlag (Nat.mod_lt _ hinterval)⟩
  · intro waiting hwaiting hwait
    have hpart : waiting.IsChain (Leg.Follows env setup) := List.IsChain.infix hfollows hwaiting
    exact (writesOf_waiting hpart hwait).1

/-- The legs of a scan of two rounds at one block. -/
def legsOn {ω : Type} (env : Surroundings ω) (world : ω) : List (Leg ω) :=
  itinerary env ⟨1, Observer.standard "caller"⟩ 2 1 ⟨world, Memory.empty, Cache.empty⟩

/-- A scan from the first block on, where operations cannot be stored. -/
def fullDiskScan : Except Error Position × Situation Unit :=
  (scan ⟨1, Observer.standard "caller"⟩ 2 1).run fullDisk.side ⟨(), Memory.empty, Cache.empty⟩

/-- One scan passes its block and is shut down after it, another one fails at it. -/
theorem scans_of_lone_blocks :
    (processedOn (closingOn transferring) ⟨1, Observer.standard "caller"⟩
          (legsOn (closingOn transferring) false) = [1] ∧
        Checkpoint.stored (closedRun transferring).2.memory = .ok 1) ∧
      ∃ x c, (legsOn fullDisk ()).getLast? = some x ∧
        Checkpoint.stored fullDiskScan.2.memory = .ok c ∧ c < x.number ∧ x.number - 1 - c < 1 := by
  have hone : 1 ≤ 1 := Nat.le_refl 1
  have hword : 1 ≤ word64Max := by decide
  constructor
  · have hstopped : (closedRun transferring).1 = .ok (.stopped 1) := by
      have hend : (closedRun transferring).1.toOption = some (.stopped 1) := by decide +kernel
      cases hresult : (closedRun transferring).1 with
      | error e =>
        rw [hresult] at hend
        cases hend
      | ok position =>
        rw [hresult] at hend
        exact congrArg Except.ok (Option.some.inj hend)
    exact ((scan_goes_block_by_block (closingOn transferring) 1 "caller" 2
      ⟨false, Memory.empty, Cache.empty⟩ hone hword).2.1 1 hstopped).2
  · have hfailed : ∃ e, fullDiskScan.1 = .error e := by
      have hend : fullDiskScan.1.toOption = none := by decide +kernel
      cases hresult : fullDiskScan.1 with
      | error e => exact ⟨e, rfl⟩
      | ok position =>
        rw [hresult] at hend
        cases hend
    obtain ⟨e, he⟩ := hfailed
    exact (scan_goes_block_by_block fullDisk 1 "caller" 2 ⟨(), Memory.empty, Cache.empty⟩ hone
      hword).2.2.1 ⟨(), Memory.empty, Cache.empty⟩ e rfl Nat.one_pos he

end ChainIndex.Scan
