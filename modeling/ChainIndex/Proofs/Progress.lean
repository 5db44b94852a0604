import ChainIndex.Proofs.Rounds

/-!
# Progress of runs

What a run achieves that starts after the checkpoint is told by a family of properties of
situations: `P k` says what it means that the blocks up to `k` are complete. A block that is
processed leaves the complete blocks complete, and may add itself to them; moving the checkpoint
to a complete block spoils nothing. Then every run, wherever it is cut short, leaves some `P k`
behind, and a run that starts from there finds nothing left out.
-/

namespace ChainIndex.Scan

open Store (Memory)

variable {ω : Type}

/-- A family of properties that runs work on. -/
structure Progressive (env : Surroundings ω) (P : Nat → Situation ω → Prop) : Prop where
  /-- The numbers of complete blocks fit their column. -/
  limit : ∀ {k : Nat} {s : Situation ω}, P k s → (k : Int) ≤ int64Max
  checkpoint : ∀ {k : Nat} {s : Situation ω}, P k s →
    ∃ c, Checkpoint.stored s.memory = .ok c ∧ c ≤ k
  fault : ∀ {k : Nat} {s : Situation ω} (request : Store.Request), P k s →
    P k { s with world := (env.fault request s.world).2 }
  node : ∀ {k : Nat} {s : Situation ω} (number : Nat), P k s →
    P k { s with world := (env.node (.block number) s.world).2 }
  moved : ∀ {k : Nat} {s : Situation ω} {number : Nat}, P k s → number ≤ k →
    P k { s with memory := s.memory.putConfig Checkpoint.key (Checkpoint.text number) }
  block : ∀ {k cursor : Nat} {s : Situation ω} {b : Block}, P k s → 1 ≤ cursor → cursor ≤ k + 1 →
    (env.node (.block cursor) s.world).1 = .ok (some b) → ∀ interval caller,
      (indexBlock ⟨interval, Observer.standard caller⟩ (asked b cursor)).Ensures env.answer (P k)
        (fun r s' => ∃ k', P k' s' ∧ k ≤ k' ∧ (r = .ok () → cursor ≤ k'))
        { s with world := (env.node (.block cursor) s.world).2 }

section

variable {env : Surroundings ω} {P : Nat → Situation ω → Prop} {k cursor : Nat} {s : Situation ω}

/-! ## The checkpoint -/

/-- The checkpoint may be moved to a complete block. -/
theorem Progressive.moveTo (hP : Progressive env P) (h : P k s) {number : Nat} (hle : number ≤ k) :
    (Checkpoint.moveTo number).Ensures env.answer (P k) (fun _ => P k) s := by
  have hread : ∀ {fault world}, env.fault (.config Checkpoint.key) s.world = (fault, world) →
      P k { s with world } := by
    intro fault world hfault
    have hkept := hP.fault (.config Checkpoint.key) h
    rwa [hfault] at hkept
  have hwrite : ∀ {fault world world'}, P k { s with world } →
      env.fault (.putConfig Checkpoint.key (Checkpoint.text number)) world = (fault, world') →
      P k { s with world := world' } := by
    intro fault world world' hs hfault
    have hkept := hP.fault (.putConfig Checkpoint.key (Checkpoint.text number)) hs
    rwa [hfault] at hkept
  apply Program.ensures_iff.2
  have hmoving := moveTo_moving env number s
  generalize (Checkpoint.moveTo number).moments env.answer s = moments at hmoving ⊢
  generalize Program.run env.answer (Checkpoint.moveTo number) s = result at hmoving ⊢
  cases hmoving with
  | unread hfault | there hfault _ =>
    have hs := hread hfault
    exact ⟨by simp [hs], hs⟩
  | unwritten hfault hfault' =>
    have hs := hread hfault
    have hs' := hwrite hs hfault'
    exact ⟨by simp [hs, hs'], hs'⟩
  | written hfault hfault' =>
    have hs := hread hfault
    have hs' := hP.moved (hwrite hs hfault') hle
    exact ⟨by simp [hs, hs'], hs'⟩

/-! ## Rounds -/

/-- A visit leaves the complete blocks complete, and a block that it reports as processed is one of
them. -/
theorem Progressive.visit (hP : Progressive env P) (h : P k s) (hpos : 1 ≤ cursor)
    (hle : cursor ≤ k + 1) (interval : Nat) (caller : String) :
    (visit ⟨interval, Observer.standard caller⟩ cursor).Ensures env.answer (P k)
      (fun r s' => ∃ k', P k' s' ∧ cursor ≤ k' + 1 ∧ (r = .ok .processed → cursor ≤ k')) s := by
  have hs := hP.node cursor h
  refine visit_ensures h (fun v hv => ⟨k, h, hle, fun hr => ?_⟩) hs
    (fun v hv => ⟨k, hs, hle, fun hr => ?_⟩) fun b hreply => ?_
  · exact absurd (Except.ok.inj hr) hv
  · exact absurd (Except.ok.inj hr) hv
  have hblock := hP.block h hpos hle hreply interval caller
  apply hblock.mono (fun _ => id)
  rintro r s' ⟨k', h', hmore, hdone⟩
  have hle' : cursor ≤ k' + 1 := by omega
  exact ⟨fun e _ => ⟨k', h', hle', fun hr => by cases hr⟩,
    fun hok => ⟨k', h', hle', fun _ => hdone hok⟩⟩

/-- How a round may end: at a block up to which everything is complete, or after a complete one. -/
structure Ended (P : Nat → Situation ω → Prop) (k : Nat) (r : Except Error Position)
    (s : Situation ω) : Prop where
  now : P k s
  scanning : ∀ cursor, r = .ok (.scanning cursor) → 1 ≤ cursor ∧ cursor ≤ k + 1
  stopped : ∀ last, r = .ok (.stopped last) → last ≤ k

/-- An error may end a round anywhere. -/
theorem ended_error (h : P k s) (e : Error) : Ended P k (.error e) s where
  now := h
  scanning cursor hr := by cases hr
  stopped last hr := by cases hr

/-- A round may lead to a block up to which everything is complete. -/
theorem ended_scanning (h : P k s) (hpos : 1 ≤ cursor) (hle : cursor ≤ k + 1) :
    Ended P k (.ok (.scanning cursor)) s where
  now := h
  scanning next hr := by
    cases hr
    exact ⟨hpos, hle⟩
  stopped last hr := by cases hr

/-- It may also stop the scan after a complete block. -/
theorem ended_stopped (h : P k s) {last : Nat} (hlast : last ≤ k) :
    Ended P k (.ok (.stopped last)) s where
  now := h
  scanning cursor hr := by cases hr
  stopped last' hr := by
    cases hr
    exact hlast

/-- The moves of the checkpoint that may follow a visit go to complete blocks. -/
theorem Progressive.close (hP : Progressive env P) (h : P k s) (hpos : 1 ≤ cursor)
    (hle : cursor ≤ k + 1) {v : Visit} (hv : v = .processed → cursor ≤ k) {number : Nat}
    {position : Position} (hclosing : Closing cursor v number position) :
    (close number position).Ensures env.answer (P k) (Ended P k) s := by
  have hnumber : number ≤ k := by
    cases hclosing with
    | stop | wait => omega
    | next => exact hv rfl
  refine Program.ensures_bind.2 ((hP.moveTo h hnumber).mono (fun _ => id) ?_)
  rintro (e | ⟨⟩) s' hs'
  · exact ended_error hs' e
  cases hclosing with
  | stop => exact ended_stopped hs' hnumber
  | wait => exact ended_scanning hs' hpos hle
  | next => exact ended_scanning hs' (by omega) (by omega)

/-- Whatever follows from a visit leaves the complete blocks complete. -/
theorem Progressive.settle (hP : Progressive env P) (h : P k s) (hpos : 1 ≤ cursor)
    (hle : cursor ≤ k + 1) (setup : Setup) {v : Visit} (hv : v = .processed → cursor ≤ k) :
    (settle setup cursor v).Ensures env.answer (P k) (Ended P k) s := by
  refine settle_ensures h (ended_error h)
    (fun number position hclosing => hP.close h hpos hle hv hclosing) fun hprocessed => ?_
  have hdone := hv hprocessed
  exact ended_scanning h (by omega) (by omega)

/-! ## Runs -/

/-- A scan leaves some blocks complete. -/
theorem Progressive.scan (hP : Progressive env P) (h : P k s) (hpos : 1 ≤ cursor)
    (hle : cursor ≤ k + 1) (interval : Nat) (caller : String) (rounds : Nat) :
    (scan ⟨interval, Observer.standard caller⟩ rounds cursor).Ensures env.answer
      (fun s' => ∃ k', P k' s') (fun r s' => ∃ k', Ended P k' r s') s := by
  induction rounds generalizing cursor k s with
  | zero => exact ⟨k, ended_scanning h hpos hle⟩
  | succ rounds ih =>
    unfold Scan.scan
    rw [advance_eq, Program.bind_eq, Program.bind_assoc]
    have hvisit := hP.visit h hpos hle interval caller
    refine Program.ensures_bind.2 (hvisit.mono (fun s' hs' => ⟨k, hs'⟩) ?_)
    rintro (e | v) s' ⟨k', h', hle', hv⟩
    · exact ⟨k', ended_error h' e⟩
    have hsettle := hP.settle h' hpos hle' ⟨interval, Observer.standard caller⟩
      fun hprocessed => hv (congrArg Except.ok hprocessed)
    refine Program.ensures_bind.2 (hsettle.mono (fun s' hs' => ⟨k', hs'⟩) ?_)
    rintro (e | position) s'' hend
    · exact ⟨k', ended_error hend.now e⟩
    cases position with
    | stopped last => exact ⟨k', hend⟩
    | scanning next =>
      obtain ⟨hpos, hle⟩ := hend.scanning next rfl
      exact ih hend.now hpos hle

/-- So does a run that starts after the checkpoint. -/
theorem Progressive.launch (hP : Progressive env P) (h : P k s) (interval : Nat) (caller : String)
    (rounds : Nat) :
    (launch ⟨interval, Observer.standard caller⟩ none rounds).Ensures env.answer
      (fun s' => ∃ k', P k' s') (fun r s' => ∃ k', Ended P k' r s') s := by
  unfold Scan.launch
  obtain ⟨hmoments, hrun⟩ := start_reads env s
  have hs := hP.fault (.config Checkpoint.key) h
  refine Program.ensures_bind.2 (Program.ensures_iff.2 ⟨?_, ?_⟩)
  · rw [hmoments]
    rintro s' hs'
    rw [List.mem_singleton.1 hs']
    exact ⟨k, hs⟩
  rw [hrun]
  obtain ⟨c, hstored, hc⟩ := hP.checkpoint h
  have hlimit := hP.limit h
  cases (env.fault (.config Checkpoint.key) s.world).1 with
  | some detail => exact ⟨k, ended_error hs _⟩
  | none =>
    have hsmall : (c : Int) ≤ int64Max := by omega
    simp only [hstored, Except.map, Checkpoint.succ_mod_word hsmall]
    exact hP.scan hs (by omega) (by omega) interval caller rounds

/-- However often scanners are started after the checkpoint, and wherever they are cut short, they
leave some blocks complete, if a new scanner may take over anywhere. -/
theorem Progressive.reachable (hP : Progressive env P) {resting : ω → ω → Prop}
    (hempty : ∀ world, P 0 ⟨world, Memory.empty, Cache.empty⟩)
    (hrest : ∀ {k s world}, P k s → resting s.world world → P k ⟨world, s.memory, Cache.empty⟩)
    (h : Reachable env resting (· = none) s) : ∃ k, P k s := by
  induction h with
  | empty world => exact ⟨0, hempty world⟩
  | @run s s' world start interval rounds caller before rest allowed moment ih =>
    obtain ⟨k, hs⟩ := ih
    subst allowed
    have hlaunch := hP.launch (hrest hs rest) interval caller rounds
    exact (Program.ensures_iff.1 hlaunch).1 s' moment

end

end ChainIndex.Scan
