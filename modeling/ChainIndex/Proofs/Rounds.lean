import ChainIndex.Proofs.Checkpoint
import ChainIndex.Proofs.Indexing

/-!
# Rounds of a scan

A round has two parts: `visit` asks for a block and processes it, and `settle` does what follows
from how that went. Only `settle` writes the checkpoint, and it is known then which blocks are done
with. A block is done with when its processing ends well, which `visit` reports as
`Visit.processed`.
-/

namespace ChainIndex.Scan

open Store (Memory)

/-! ## The two parts of a round -/

/-- How a visit to a block has gone. -/
inductive Visit where
  | cancelled
  /-- The node has no such block yet. -/
  | absent
  | failed (e : Error)
  | processed

/-- A block under the number that was asked for, with the positions of its transactions. -/
def asked (b : Block) (number : Nat) : Block := ({ b with number } : Block).placeAll

/-- Ask for a block and process it. -/
def visit (setup : Setup) (cursor : Nat) : Procedure Visit := do
  if ← cancelled then pure .cancelled
  else
    match ← (node (.block cursor)).attempt with
    | .error e => pure (.failed e)
    | .ok none => pure .absent
    | .ok (some b) =>
      match ← (indexBlock setup (asked b cursor)).attempt with
      | .error e => pure (.failed e)
      | .ok () => pure .processed

/-- What follows from a visit. -/
def settle (setup : Setup) (cursor : Nat) : Visit → Procedure Position
  | .cancelled => endBefore cursor
  | .absent => do
    Checkpoint.moveTo (cursor - 1)
    pure (.scanning cursor)
  | .failed e => breakOff cursor e
  | .processed => do
    if 0 < setup.interval ∧ cursor % setup.interval = 0 then Checkpoint.moveTo cursor else pure ()
    pure (.scanning (cursor + 1))

/-- A round is a visit and what follows from it. -/
theorem advance_eq (setup : Setup) (cursor : Nat) :
    advance setup cursor = (visit setup cursor).bind (settle setup cursor) := by
  unfold advance visit
  simp only [Program.bind_eq, Program.pure_eq, Program.bind_assoc]
  congr 1
  funext isCancelled
  cases isCancelled with
  | true => rfl
  | false =>
    simp only [Bool.false_eq_true, if_false, Program.bind_assoc]
    congr 1
    funext reply
    cases reply with
    | error e => rfl
    | ok found =>
      cases found with
      | none => rfl
      | some b =>
        simp only [scanBlock, Program.bind_eq, Program.pure_eq, Program.bind_assoc]
        congr 1
        funext r
        cases r with
        | error e => rfl
        | ok _ => rfl

section

variable {ω : Type} (env : Surroundings ω) {setup : Setup} {cursor : Nat} {s : Situation ω}
  {world : ω}

/-- A round at a block that is there scans it. -/
theorem run_advance_of_block {b : Block} (hcancelled : env.cancelled s.world = false)
    (hreply : env.node (.block cursor) s.world = (.ok (some b), world)) :
    Program.run env.answer (advance setup cursor) s =
      Program.run env.answer (scanBlock setup cursor b) { s with world } := by
  show Program.run env.answer (if env.cancelled s.world then _ else _) s = _
  rw [hcancelled]
  show Program.run env.answer
    (((Program.ofExcept (env.node (.block cursor) s.world).1).attempt).bind _)
    { s with world := (env.node (.block cursor) s.world).2 } = _
  rw [hreply]
  rfl

/-- A block that is processed to a good end is followed by what settles it. -/
theorem run_scanBlock_of_ok {b : Block} {s' : Situation ω}
    (h : Program.run env.answer (indexBlock setup (asked b cursor)) s = (.ok (), s')) :
    Program.run env.answer (scanBlock setup cursor b) s =
      Program.run env.answer (settle setup cursor .processed) s' := by
  show Program.run env.answer ((indexBlock setup (asked b cursor)).attempt.bind _) s = _
  rw [Program.run_bind, Program.run_attempt, h]
  rfl

/-- A round at a block that is not there moves the checkpoint up to it. -/
theorem run_advance_of_absent (hcancelled : env.cancelled s.world = false)
    (hreply : env.node (.block cursor) s.world = (.ok none, world)) :
    Program.run env.answer (advance setup cursor) s =
      Program.run env.answer
        ((Checkpoint.moveTo (cursor - 1)).bind fun _ => .done (.scanning cursor))
        { s with world } := by
  show Program.run env.answer (if env.cancelled s.world then _ else _) s = _
  rw [hcancelled]
  show Program.run env.answer
    (((Program.ofExcept (env.node (.block cursor) s.world).1).attempt).bind _)
    { s with world := (env.node (.block cursor) s.world).2 } = _
  rw [hreply]
  rfl

/-- A round that is cancelled ends the scan before its block. -/
theorem run_advance_of_cancelled (hcancelled : env.cancelled s.world) :
    Program.run env.answer (advance setup cursor) s =
      Program.run env.answer (endBefore cursor) s := by
  show Program.run env.answer (if env.cancelled s.world then _ else _) s = _
  rw [hcancelled]
  rfl

end

/-! ## Writing the checkpoint -/

section

variable {ω : Type} {env : Surroundings ω}

/-- How moving the checkpoint can go: by its moments, and by its outcome and last situation. It is
read first and then written, unless it is there already. -/
inductive Moving (env : Surroundings ω) (number : Nat) (s : Situation ω) :
    List (Situation ω) → Except Error Unit × Situation ω → Prop where
  | unread {detail : String} {world : ω}
      (hread : env.fault (.config Checkpoint.key) s.world = (some detail, world)) :
      Moving env number s [{ s with world }] (.error (.store detail), { s with world })
  | there {world : ω} (hread : env.fault (.config Checkpoint.key) s.world = (none, world))
      (hthere : s.memory.configs.lookup Checkpoint.key = some (Checkpoint.text number)) :
      Moving env number s [{ s with world }] (.ok (), { s with world })
  | unwritten {detail : String} {world world' : ω}
      (hread : env.fault (.config Checkpoint.key) s.world = (none, world))
      (hwrite : env.fault (.putConfig Checkpoint.key (Checkpoint.text number)) world =
        (some detail, world')) :
      Moving env number s [{ s with world }, { s with world := world' }]
        (.error (.store detail), { s with world := world' })
  | written {world world' : ω}
      (hread : env.fault (.config Checkpoint.key) s.world = (none, world))
      (hwrite : env.fault (.putConfig Checkpoint.key (Checkpoint.text number)) world =
        (none, world')) :
      Moving env number s
        [{ s with world },
          ⟨world', s.memory.putConfig Checkpoint.key (Checkpoint.text number), s.cache⟩]
        (.ok (), ⟨world', s.memory.putConfig Checkpoint.key (Checkpoint.text number), s.cache⟩)

theorem moveTo_moving (env : Surroundings ω) (number : Nat) (s : Situation ω) :
    Moving env number s ((Checkpoint.moveTo number).moments env.answer s)
      (Program.run env.answer (Checkpoint.moveTo number) s) := by
  -- what follows the reply to the reading
  have hmoments : (Checkpoint.moveTo number).moments env.answer s =
      (env.answer (.store (.config Checkpoint.key)) s).2 ::
        Program.moments env.answer
          ((Program.ofExcept (env.answer (.store (.config Checkpoint.key)) s).1).bind fun found =>
            if found = some (Checkpoint.text number) then .done ()
            else store (.putConfig Checkpoint.key (Checkpoint.text number)))
          (env.answer (.store (.config Checkpoint.key)) s).2 := rfl
  have hrun : Program.run env.answer (Checkpoint.moveTo number) s =
      Program.run env.answer
        ((Program.ofExcept (env.answer (.store (.config Checkpoint.key)) s).1).bind fun found =>
          if found = some (Checkpoint.text number) then .done ()
          else store (.putConfig Checkpoint.key (Checkpoint.text number)))
        (env.answer (.store (.config Checkpoint.key)) s).2 := rfl
  rw [hmoments, hrun]
  cases hread : env.fault (.config Checkpoint.key) s.world with
  | mk fault world =>
    cases fault with
    | some detail =>
      rw [env.answer_of_fault hread]
      exact .unread hread
    | none =>
      rw [env.answer_of_no_fault hread]
      by_cases hthere : s.memory.configs.lookup Checkpoint.key = some (Checkpoint.text number)
      · simp only [Memory.answer, Program.ofExcept, Program.done_bind, if_pos hthere]
        exact .there hread hthere
      · simp only [Memory.answer, Program.ofExcept, Program.done_bind, if_neg hthere]
        cases hwrite : env.fault (.putConfig Checkpoint.key (Checkpoint.text number)) world with
        | mk fault world' =>
          rw [env.moments_store, env.run_store]
          cases fault with
          | some detail =>
            rw [env.answer_of_fault hwrite]
            exact .unwritten hread hwrite
          | none =>
            rw [env.answer_of_no_fault hwrite]
            exact .written hread hwrite

/-- Where a run starts from the checkpoint is read from the store, once. -/
theorem start_reads (env : Surroundings ω) (s : Situation ω) :
    (Checkpoint.start none).moments env.answer s =
        [{ s with world := (env.fault (.config Checkpoint.key) s.world).2 }] ∧
      Program.run env.answer (Checkpoint.start none) s =
        (match (env.fault (.config Checkpoint.key) s.world).1 with
          | some detail => .error (.store detail)
          | none => (Checkpoint.stored s.memory).map fun c => c.succ % (word64Max + 1),
          { s with world := (env.fault (.config Checkpoint.key) s.world).2 }) := by
  have hmoments : (Checkpoint.start none).moments env.answer s =
      (env.answer (.store (.config Checkpoint.key)) s).2 :: _ := rfl
  have hrun : Program.run env.answer (Checkpoint.start none) s = Program.run env.answer _
      (env.answer (.store (.config Checkpoint.key)) s).2 := rfl
  rw [hmoments, hrun]
  cases hread : env.fault (.config Checkpoint.key) s.world with
  | mk fault world =>
    cases fault with
    | some detail =>
      rw [env.answer_of_fault hread]
      exact ⟨rfl, rfl⟩
    | none =>
      rw [env.answer_of_no_fault hread]
      unfold Checkpoint.stored
      simp only [Memory.answer, Program.ofExcept, Program.done_bind]
      cases s.memory.configs.lookup Checkpoint.key with
      | none => exact ⟨rfl, rfl⟩
      | some value =>
        cases hvalue : Checkpoint.ofText value with
        | ok c => simp [hvalue, Program.moments, Program.run, Except.map]
        | error e => simp [hvalue, Program.moments, Program.run, Except.map]

/-! ## What a round can do -/

section

variable {M : Situation ω → Prop} {setup : Setup} {cursor : Nat} {s : Situation ω}

/-- A visit changes nothing but the world before it processes a block, and then it goes as the
processing goes. -/
theorem visit_ensures {Q : Except Error Visit → Situation ω → Prop} (hs : M s)
    (hquiet : ∀ v, v ≠ .processed → Q (.ok v) s)
    (hs' : M { s with world := (env.node (.block cursor) s.world).2 })
    (hquiet' : ∀ v, v ≠ .processed →
      Q (.ok v) { s with world := (env.node (.block cursor) s.world).2 })
    (hblock : ∀ b, (env.node (.block cursor) s.world).1 = .ok (some b) →
      (indexBlock setup (asked b cursor)).Ensures env.answer M
        (fun r s' => (∀ e, r = .error e → Q (.ok (.failed e)) s') ∧
          (r = .ok () → Q (.ok .processed) s'))
        { s with world := (env.node (.block cursor) s.world).2 }) :
    (visit setup cursor).Ensures env.answer M Q s := by
  unfold visit
  refine ⟨hs, ?_⟩
  show Program.Ensures env.answer _ _ (if env.cancelled s.world then _ else _) s
  split
  · exact hquiet .cancelled Visit.noConfusion
  refine ⟨hs', ?_⟩
  show Program.Ensures env.answer _ _
    (((Program.ofExcept (env.node (.block cursor) s.world).1).attempt).bind _)
    { s with world := (env.node (.block cursor) s.world).2 }
  cases hreply : (env.node (.block cursor) s.world).1 with
  | error e => exact hquiet' (.failed e) Visit.noConfusion
  | ok found =>
    cases found with
    | none => exact hquiet' .absent Visit.noConfusion
    | some b =>
      show Program.Ensures env.answer _ _ ((Program.attempt (indexBlock _ _)).bind _) _
      refine Program.ensures_bind.2 (Program.ensures_attempt.2 ?_)
      apply (hblock b hreply).mono (fun _ => id)
      intro r s' hr
      cases r with
      | error e => exact hr.1 e rfl
      | ok _ => exact hr.2 rfl

/-- Move the checkpoint, and say where the scan is then. -/
def close (number : Nat) (position : Position) : Procedure Position :=
  (Checkpoint.moveTo number).bind fun _ => .done position

/-- The moves of the checkpoint that may follow a visit, and where they lead. -/
inductive Closing (cursor : Nat) : Visit → (number : Nat) → Position → Prop where
  | stop {v : Visit} (hv : v ≠ .processed) : Closing cursor v (cursor - 1) (.stopped (cursor - 1))
  | wait : Closing cursor .absent (cursor - 1) (.scanning cursor)
  | next : Closing cursor .processed cursor (.scanning (cursor + 1))

/-- How a visit can be settled: by the moments and by the outcome and last situation. Asking whether
the run was cancelled is a moment too. -/
inductive Settling (env : Surroundings ω) (cursor : Nat) (v : Visit) (s : Situation ω) :
    List (Situation ω) → Except Error Position × Situation ω → Prop where
  | failed {seen : List (Situation ω)} (hseen : ∀ s' ∈ seen, s' = s) (e : Error) :
      Settling env cursor v s seen (.error e, s)
  | moved {seen : List (Situation ω)} {number : Nat} {position : Position}
      (hseen : ∀ s' ∈ seen, s' = s) (hclosing : Closing cursor v number position) :
      Settling env cursor v s (seen ++ (close number position).moments env.answer s)
        (Program.run env.answer (close number position) s)
  | kept (hv : v = .processed) :
      Settling env cursor v s [] (.ok (.scanning (cursor + 1)), s)

theorem settle_settling (env : Surroundings ω) (setup : Setup) (cursor : Nat) (v : Visit)
    (s : Situation ω) :
    Settling env cursor v s ((settle setup cursor v).moments env.answer s)
      (Program.run env.answer (settle setup cursor v) s) := by
  have hnone : ∀ s' ∈ ([] : List (Situation ω)), s' = s := by simp
  have hone : ∀ s' ∈ [s], s' = s := by simp
  cases v with
  | cancelled => exact .moved hnone (.stop Visit.noConfusion)
  | absent => exact .moved hnone .wait
  | failed e =>
    show Settling env cursor _ s ((breakOff cursor e).moments env.answer s)
      (Program.run env.answer (breakOff cursor e) s)
    unfold breakOff
    by_cases hnode : e.isNodeFailure
    · rw [if_pos hnode]
      show Settling env cursor _ s
        (s :: Program.moments env.answer (if env.cancelled s.world then _ else _) s)
        (Program.run env.answer (if env.cancelled s.world then _ else _) s)
      by_cases hcancelled : env.cancelled s.world
      · rw [if_pos hcancelled]
        exact .moved hone (.stop Visit.noConfusion)
      · rw [if_neg hcancelled]
        exact .failed hone e
    · rw [if_neg hnode]
      exact .failed hnone e
  | processed =>
    simp only [settle, Program.bind_eq, Program.pure_eq]
    by_cases hdue : 0 < setup.interval ∧ cursor % setup.interval = 0
    · rw [if_pos hdue]
      exact .moved hnone .next
    · rw [if_neg hdue]
      exact .kept rfl

/-- What the moves of the checkpoint ensure is ensured by whatever settles a visit. -/
theorem settle_ensures {Q : Except Error Position → Situation ω → Prop} {v : Visit} (hs : M s)
    (hfailed : ∀ e, Q (.error e) s)
    (hmoved : ∀ number position, Closing cursor v number position →
      (close number position).Ensures env.answer M Q s)
    (hkept : v = .processed → Q (.ok (.scanning (cursor + 1))) s) :
    (settle setup cursor v).Ensures env.answer M Q s := by
  apply Program.ensures_iff.2
  have hsettling := settle_settling env setup cursor v s
  generalize (settle setup cursor v).moments env.answer s = moments at hsettling ⊢
  generalize Program.run env.answer (settle setup cursor v) s = result at hsettling ⊢
  cases hsettling with
  | failed hseen e => exact ⟨fun s' hs' => hseen s' hs' ▸ hs, hfailed e⟩
  | moved hseen hclosing =>
    obtain ⟨hmoments, hend⟩ := Program.ensures_iff.1 (hmoved _ _ hclosing)
    refine ⟨fun s' hs' => ?_, hend⟩
    rcases List.mem_append.1 hs' with hs' | hs'
    · exact hseen s' hs' ▸ hs
    · exact hmoments s' hs'
  | kept hv => exact ⟨by simp, hkept hv⟩

end

/-! ## What rounds keep -/

variable {α β : Type} {Γ : Frame env} {s : Situation ω}

theorem keeps_done {a : α} {post : α → Situation ω → Prop} (hs : Γ.At s) (hpost : post a s) :
    Keeps Γ (.done a) post s := by
  refine ⟨hs, fun a' ha => ?_⟩
  cases ha
  exact hpost

/-- A visit leaves the checkpoint alone, and a block that it reports as processed is stored. -/
theorem visit_keeps (hworld : ∀ s, Γ.Holds s → ∀ world, Γ.Holds { s with world }) (hs : Γ.At s)
    (interval : Nat) (caller : String) (cursor : Nat) :
    Keeps Γ (visit ⟨interval, Observer.standard caller⟩ cursor)
      (fun v s' => v = .processed →
        (cursor : Int) ≤ int64Max ∧ (s'.memory.block? cursor).isSome) s := by
  have hs' : Γ.At { s with world := (env.node (.block cursor) s.world).2 } :=
    ⟨hworld s hs.holds _, hs.sound.withWorld _⟩
  refine visit_ensures hs (fun v hv => ⟨hs, fun v' hr hv' => ?_⟩) hs'
    (fun v hv => ⟨hs', fun v' hr hv' => ?_⟩) fun b hreply => ?_
  · exact absurd ((Except.ok.inj hr).trans hv') hv
  · exact absurd ((Except.ok.inj hr).trans hv') hv
  · have hblock := indexBlock_keeps hs' interval caller (asked b cursor)
    refine Program.Ensures.mono hblock (fun _ => id) fun r s'' hr => ⟨fun e _ => ?_, fun hok => ?_⟩
    · exact ⟨hr.1, fun v hfailed hv => by cases hfailed; cases hv⟩
    · exact ⟨hr.1, fun v _ _ => hr.2 () hok⟩

/-- Moving the checkpoint leaves a scanner sound. -/
theorem moveTo_keeps (hs : (Frame.plain env).At s) (number : Nat) :
    Keeps (Frame.plain env) (Checkpoint.moveTo number) (fun _ _ => True) s := by
  have hworld : ∀ world, (Frame.plain env).At { s with world } := by
    intro world
    exact ⟨trivial, hs.sound.withWorld world⟩
  have hproper : (Store.Request.putConfig Checkpoint.key (Checkpoint.text number)).Proper := trivial
  have hwritten : ∀ world, (Frame.plain env).At
      ⟨world, s.memory.putConfig Checkpoint.key (Checkpoint.text number), s.cache⟩ := by
    intro world
    exact ⟨trivial, hs.sound.answer hproper world⟩
  apply Program.ensures_iff.2
  have hmoving := moveTo_moving env number s
  generalize (Checkpoint.moveTo number).moments env.answer s = moments at hmoving ⊢
  generalize Program.run env.answer (Checkpoint.moveTo number) s = result at hmoving ⊢
  cases hmoving <;> simp [hworld, hwritten]

theorem settle_keeps (hs : (Frame.plain env).At s) (setup : Setup) (cursor : Nat) (v : Visit) :
    Keeps (Frame.plain env) (settle setup cursor v) (fun _ _ => True) s := by
  refine settle_ensures hs (fun e => ⟨hs, fun _ _ => trivial⟩) (fun number position _ => ?_)
    fun _ => ⟨hs, fun _ _ => trivial⟩
  exact (moveTo_keeps hs number).bind fun _ _ hs _ => keeps_done hs trivial

theorem scan_keeps (hs : (Frame.plain env).At s) (interval : Nat) (caller : String)
    (rounds cursor : Nat) :
    Keeps (Frame.plain env) (scan ⟨interval, Observer.standard caller⟩ rounds cursor)
      (fun _ _ => True) s := by
  induction rounds generalizing s cursor with
  | zero => exact keeps_done hs trivial
  | succ rounds ih =>
    unfold scan
    rw [advance_eq]
    have hround : Keeps (Frame.plain env)
        ((visit ⟨interval, Observer.standard caller⟩ cursor).bind
          (settle ⟨interval, Observer.standard caller⟩ cursor)) (fun _ _ => True) s :=
      (visit_keeps (fun _ _ _ => trivial) hs interval caller cursor).bind fun v _ hs _ =>
        settle_keeps hs _ cursor v
    apply hround.bind
    intro position _ hs _
    cases position with
    | scanning cursor => exact ih hs cursor
    | stopped last => exact keeps_done hs trivial

theorem start_keeps (hs : (Frame.plain env).At s) (start : Option Nat) :
    Keeps (Frame.plain env) (Checkpoint.start start) (fun _ _ => True) s := by
  cases start with
  | some number => exact keeps_done hs trivial
  | none =>
    obtain ⟨hmoments, hrun⟩ := start_reads env s
    have hs' : (Frame.plain env).At
        { s with world := (env.fault (.config Checkpoint.key) s.world).2 } :=
      ⟨trivial, hs.sound.withWorld _⟩
    apply Program.ensures_iff.2
    rw [hmoments, hrun]
    exact ⟨by simp [hs'], hs', fun _ _ => trivial⟩

/-- Scanners on a store that was empty at first are sound, however often they were started and
wherever they were stopped. -/
theorem Reachable.sound {resting : ω → ω → Prop} {starts : Option Nat → Prop}
    (h : Reachable env resting starts s) : Sound s := by
  induction h with
  | empty world => exact sound_of_wellFormed Store.Memory.wellFormed_empty world
  | @run s s' world start interval rounds caller before rest allowed moment ih =>
    have hs : (Frame.plain env).At ⟨world, s.memory, Cache.empty⟩ :=
      ⟨trivial, sound_of_wellFormed ih.memory world⟩
    have hlaunch : Keeps (Frame.plain env)
        (launch ⟨interval, Observer.standard caller⟩ start rounds) (fun _ _ => True)
        ⟨world, s.memory, Cache.empty⟩ :=
      (start_keeps hs start).bind fun cursor _ hs _ => scan_keeps hs interval caller rounds cursor
    exact ((Program.ensures_iff.1 hlaunch).1 s' moment).sound

end

end ChainIndex.Scan
