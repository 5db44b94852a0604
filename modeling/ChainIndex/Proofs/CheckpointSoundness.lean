import ChainIndex.Proofs.Rounds

/-!
# What the checkpoint promises

A checkpoint promises that every block up to it is done with: that it was processed to a good end,
by this run or an earlier one, and is stored. A scan that starts after the checkpoint would never
come back to a block for which this were wrong.

The journal of a run lists its moments together with the blocks that were done with by then, and
`Life` puts the journals of all runs on a store one after the other.
-/

namespace ChainIndex.Scan

open Store (Memory)

variable {ω : Type}

/-! ## Journals -/

/-- A moment, and the numbers of the blocks that were processed to a good end by then. -/
structure Note (ω : Type) where
  processed : List Nat
  situation : Situation ω

/-- The number of a block is noted when its processing has ended well. -/
def Visit.noted (cursor : Nat) (processed : List Nat) : Visit → List Nat
  | .processed => cursor :: processed
  | _ => processed

theorem Visit.noted_of_ne {cursor : Nat} {processed : List Nat} {v : Visit} (hv : v ≠ .processed) :
    v.noted cursor processed = processed := by
  cases v with
  | processed => exact absurd rfl hv
  | cancelled | absent | failed e => rfl

/-- The journal of a scan. -/
def journal (env : Surroundings ω) (setup : Setup) :
    (rounds cursor : Nat) → (processed : List Nat) → Situation ω → List (Note ω)
  | 0, _, _, _ => []
  | rounds + 1, cursor, processed, s =>
    ((visit setup cursor).moments env.answer s).map (Note.mk processed) ++
      match (visit setup cursor).run env.side s with
      | (.error _, _) => []
      | (.ok v, s) =>
        let processed := v.noted cursor processed
        ((settle setup cursor v).moments env.answer s).map (Note.mk processed) ++
          match (settle setup cursor v).run env.side s with
          | (.ok (.scanning cursor), s) => journal env setup rounds cursor processed s
          | (_, _) => []

/-- The journal of a run that starts after the checkpoint. -/
def launchJournal (env : Surroundings ω) (setup : Setup) (rounds : Nat) (processed : List Nat)
    (s : Situation ω) : List (Note ω) :=
  ((Checkpoint.start none).moments env.answer s).map (Note.mk processed) ++
    match (Checkpoint.start none).run env.side s with
    | (.error _, _) => []
    | (.ok cursor, s) => journal env setup rounds cursor processed s

/-- A journal lists the moments of its scan. -/
theorem journal_situations (env : Surroundings ω) (setup : Setup) (rounds cursor : Nat)
    (processed : List Nat) (s : Situation ω) :
    (journal env setup rounds cursor processed s).map Note.situation =
      (scan setup rounds cursor).moments env.answer s := by
  have hplain : ∀ (processed : List Nat) (l : List (Situation ω)),
      (l.map (Note.mk processed)).map Note.situation = l := by
    intro processed l
    rw [List.map_map]
    exact List.map_id l
  induction rounds generalizing cursor processed s with
  | zero => rfl
  | succ rounds ih =>
    unfold journal scan
    rw [advance_eq, Program.bind_eq, Program.bind_assoc, Program.moments_bind, List.map_append,
      hplain]
    congr 1
    unfold Procedure.run
    cases Program.run env.answer (visit setup cursor) s with
    | mk visited s =>
      cases visited with
      | error e => rfl
      | ok v =>
        simp only [Program.moments_bind, List.map_append, hplain]
        congr 1
        cases Program.run env.answer (settle setup cursor v) s with
        | mk settled s =>
          match settled with
          | .error e => rfl
          | .ok (.stopped last) => rfl
          | .ok (.scanning cursor) => exact ih cursor _ s

/-- And so does the journal of a run. -/
theorem launchJournal_situations (env : Surroundings ω) (setup : Setup) (rounds : Nat)
    (processed : List Nat) (s : Situation ω) :
    (launchJournal env setup rounds processed s).map Note.situation =
      (launch setup none rounds).moments env.answer s := by
  unfold launchJournal launch
  rw [Program.bind_eq, Program.moments_bind, List.map_append, List.map_map]
  congr 1
  · exact List.map_id _
  · unfold Procedure.run
    cases Program.run env.answer (Checkpoint.start none) s with
    | mk started s =>
      cases started with
      | error e => rfl
      | ok cursor => exact journal_situations env setup rounds cursor processed s

/-- What is noted of a store that was empty at first, in the order in which it happens. Every run
starts with a new scanner after the checkpoint that it finds, in a world of its own, and may be cut
short at any of its moments. -/
inductive Life (env : Surroundings ω) : List (Note ω) → Prop where
  | empty (world : ω) : Life env [⟨[], ⟨world, Memory.empty, Cache.empty⟩⟩]
  | run {notes more : List (Note ω)} {last : Note ω} {world : ω} {interval rounds : Nat}
      {caller : String} (before : Life env notes) (hlast : notes.getLast? = some last)
      (cut : more <+: launchJournal env ⟨interval, Observer.standard caller⟩ rounds last.processed
        ⟨world, last.situation.memory, Cache.empty⟩) :
      Life env (notes ++
        ⟨last.processed, ⟨world, last.situation.memory, Cache.empty⟩⟩ :: more)

/-! ## Backed checkpoints -/

/-- The blocks up to a number are done with. -/
def Note.Covers (x : Note ω) (number : Nat) : Prop :=
  ∀ n, 1 ≤ n → n ≤ number → n ∈ x.processed ∧ (x.situation.memory.block? n).isSome

/-- A checkpoint is stored that keeps its promise. -/
structure Note.Backs (x : Note ω) (c : Nat) : Prop where
  stored : Checkpoint.stored x.situation.memory = .ok c
  limit : (c : Int) ≤ int64Max
  covers : x.Covers c
  sound : Sound x.situation

/-- Notes that back checkpoints which never fall, from one number to another. -/
inductive Climbs : Nat → List (Note ω) → Nat → Prop where
  | nil (c : Nat) : Climbs c [] c
  | cons {c c₁ c₂ : Nat} {x : Note ω} {notes : List (Note ω)} (hle : c ≤ c₁) (hx : x.Backs c₁)
      (hnotes : Climbs c₁ notes c₂) : Climbs c (x :: notes) c₂

theorem Climbs.append {c c₁ c₂ : Nat} {notes more : List (Note ω)} (h : Climbs c notes c₁)
    (hmore : Climbs c₁ more c₂) : Climbs c (notes ++ more) c₂ := by
  induction h with
  | nil c => exact hmore
  | cons hle hx _ ih => exact .cons hle hx (ih hmore)

/-- As long as the checkpoint is left alone, it is backed if every note backs it. -/
theorem climbs_of_backs {c : Nat} {notes : List (Note ω)} (h : ∀ x ∈ notes, x.Backs c) :
    Climbs c notes c := by
  induction notes with
  | nil => exact .nil c
  | cons x notes ih =>
    exact .cons (Nat.le_refl c) (h x (by simp)) (ih fun y hy => h y (by simp [hy]))

/-- What is cut short climbs as far as it goes. -/
theorem Climbs.cut {c c' : Nat} {notes part : List (Note ω)} (h : Climbs c notes c')
    (hpart : part <+: notes) : ∃ c₁, Climbs c part c₁ := by
  induction h generalizing part with
  | nil c =>
    rw [List.prefix_nil.1 hpart]
    exact ⟨c, .nil c⟩
  | @cons c c₁ c₂ x notes hle hx _ ih =>
    cases part with
    | nil => exact ⟨c, .nil c⟩
    | cons y part =>
      obtain ⟨rfl, hrest⟩ := List.cons_prefix_cons.1 hpart
      obtain ⟨c₃, hclimbs⟩ := ih hrest
      exact ⟨c₃, .cons hle hx hclimbs⟩

/-- The last of the notes backs the last of the checkpoints. -/
theorem Climbs.last {c c' : Nat} {notes : List (Note ω)} {x : Note ω} (h : Climbs c notes c')
    (hlast : notes.getLast? = some x) : x.Backs c' := by
  induction h with
  | nil c => cases hlast
  | @cons c c₁ c₂ y notes hle hy hnotes ih =>
    cases hnotes with
    | nil =>
      cases hlast
      exact hy
    | cons hle hx hnotes => exact ih (by rwa [List.getLast?_cons_cons] at hlast)

/-- Every note backs a checkpoint that is not below the one at the beginning. -/
theorem Climbs.mem {c c' : Nat} {notes : List (Note ω)} {x : Note ω} (h : Climbs c notes c')
    (hx : x ∈ notes) : ∃ c₁, c ≤ c₁ ∧ x.Backs c₁ := by
  induction h with
  | nil c => cases hx
  | @cons c c₁ c₂ y notes hle hy _ ih =>
    rcases List.mem_cons.1 hx with rfl | hx
    · exact ⟨c₁, hle, hy⟩
    · obtain ⟨c₃, hle', hbacks⟩ := ih hx
      exact ⟨c₃, Nat.le_trans hle hle', hbacks⟩

/-- Of two notes the later one has no smaller checkpoint. -/
theorem Climbs.pairwise {c c' : Nat} {notes : List (Note ω)} (h : Climbs c notes c') :
    notes.Pairwise fun x y => ∀ c c', Checkpoint.stored x.situation.memory = .ok c →
      Checkpoint.stored y.situation.memory = .ok c' → c ≤ c' := by
  induction h with
  | nil c => exact List.Pairwise.nil
  | cons hle hx hnotes ih =>
    refine List.pairwise_cons.2 ⟨fun y hy a b ha hb => ?_, ih⟩
    obtain ⟨c₃, hle', hbacks⟩ := hnotes.mem hy
    cases hx.stored.symm.trans ha
    cases hbacks.stored.symm.trans hb
    exact hle'

/-! ## What a run adds -/

section

variable {env : Surroundings ω} {x : Note ω} {processed : List Nat} {s : Situation ω}
  {c cursor : Nat}

/-- A new world changes nothing about the checkpoint. -/
theorem Note.Backs.withWorld (h : Note.Backs ⟨processed, s⟩ c) (world : ω) :
    Note.Backs ⟨processed, { s with world }⟩ c :=
  ⟨h.stored, h.limit, h.covers, h.sound.withWorld world⟩

/-- The checkpoint is moved to a block up to which everything is done with. -/
theorem moveTo_climbs (env : Surroundings ω) {number : Nat} (h : Note.Backs ⟨processed, s⟩ c)
    (hle : c ≤ number) (hmax : (number : Int) ≤ int64Max)
    (hcovers : Note.Covers ⟨processed, s⟩ number) :
    ∃ c', c' ≤ number ∧
      Climbs c (((Checkpoint.moveTo number).moments env.answer s).map (Note.mk processed)) c' ∧
      Note.Backs ⟨processed, (Program.run env.answer (Checkpoint.moveTo number) s).2⟩ c' ∧
      Note.Covers ⟨processed, (Program.run env.answer (Checkpoint.moveTo number) s).2⟩ number := by
  have hread : ∀ world, Note.Backs ⟨processed, { s with world }⟩ c := h.withWorld
  have hmoving := moveTo_moving env number s
  generalize (Checkpoint.moveTo number).moments env.answer s = moments at hmoving ⊢
  generalize Program.run env.answer (Checkpoint.moveTo number) s = result at hmoving ⊢
  cases hmoving with
  | unread | there | unwritten =>
    exact ⟨c, hle, climbs_of_backs (by simp [hread]), hread _, hcovers⟩
  | @written world world' =>
    have hproper : (Store.Request.putConfig Checkpoint.key (Checkpoint.text number)).Proper :=
      trivial
    have hwritten : Note.Backs ⟨processed, ⟨world',
        s.memory.putConfig Checkpoint.key (Checkpoint.text number), s.cache⟩⟩ number :=
      ⟨Checkpoint.stored_putConfig _ (Checkpoint.le_word64Max hmax), hmax, hcovers,
        h.sound.answer hproper world'⟩
    exact ⟨number, Nat.le_refl number, .cons (Nat.le_refl c) (hread world)
      (.cons hle hwritten (.nil number)), hwritten, hcovers⟩

/-- A scan is at a block, and everything before it is done with. -/
structure Note.Ready (x : Note ω) (cursor c : Nat) : Prop where
  backs : x.Backs c
  below : c < cursor
  limit : (cursor : Int) ≤ int64Max + 1
  covers : x.Covers (cursor - 1)

/-- The checkpoint is left alone, and the blocks before the cursor stay stored. -/
def Frame.ready (env : Surroundings ω) (cursor c : Nat) : Frame env where
  Holds s := Checkpoint.stored s.memory = .ok c ∧
    ∀ n, 1 ≤ n → n < cursor → (s.memory.block? n).isSome
  keep request s hwithin hs := by
    refine ⟨?_, fun n hpos hn => (env.answer_grows request s).block n (hs.2 n hpos hn)⟩
    rw [Checkpoint.stored_answer env hwithin]
    exact hs.1

theorem Note.Ready.at (h : Note.Ready ⟨processed, s⟩ cursor c) : (Frame.ready env cursor c).At s :=
  ⟨⟨h.backs.stored, fun n hpos hn => (h.covers n hpos (Nat.le_sub_one_of_lt hn)).2⟩, h.backs.sound⟩

/-- A scan stays where it is as long as the checkpoint is left alone. -/
theorem Note.Ready.keep {s' : Situation ω} (h : Note.Ready ⟨processed, s⟩ cursor c)
    (hs' : (Frame.ready env cursor c).At s') : Note.Ready ⟨processed, s'⟩ cursor c := by
  have hcovers : Note.Covers ⟨processed, s'⟩ (cursor - 1) := by
    intro n hpos hn
    exact ⟨(h.covers n hpos hn).1, hs'.holds.2 n hpos (by omega)⟩
  refine ⟨⟨hs'.holds.1, h.backs.limit, fun n hpos hn => hcovers n hpos ?_, hs'.sound⟩, h.below,
    h.limit, hcovers⟩
  exact Nat.le_trans hn (Nat.le_sub_one_of_lt h.below)

/-- After a block that was processed to a good end, the scan is at the next one. -/
theorem Note.Ready.next (h : Note.Ready ⟨processed, s⟩ cursor c)
    (hstored : (s.memory.block? cursor).isSome) :
    Note.Covers ⟨cursor :: processed, s⟩ cursor := by
  intro n hpos hn
  rcases Nat.lt_or_eq_of_le hn with hn | rfl
  · obtain ⟨hmem, hblock⟩ := h.covers n hpos (Nat.le_sub_one_of_lt hn)
    exact ⟨List.mem_cons_of_mem cursor hmem, hblock⟩
  · exact ⟨by simp, hstored⟩

/-- The checkpoint keeps its promise when the block is noted. -/
theorem Note.Ready.noted (h : Note.Ready ⟨processed, s⟩ cursor c)
    (hstored : (s.memory.block? cursor).isSome) : Note.Backs ⟨cursor :: processed, s⟩ c := by
  have hcovers := h.next hstored
  have hbelow := h.below
  exact ⟨h.backs.stored, h.backs.limit, fun n hpos hn => hcovers n hpos (by omega), h.backs.sound⟩

/-- The checkpoint is moved after a visit, to a block up to which everything is done with. -/
theorem close_climbs (env : Surroundings ω) {v : Visit} (h : Note.Ready ⟨processed, s⟩ cursor c)
    (hv : v = .processed → (cursor : Int) ≤ int64Max ∧ (s.memory.block? cursor).isSome)
    {number : Nat} {position : Position} (hclosing : Closing cursor v number position) :
    ∃ c', Climbs c (((close number position).moments env.answer s).map
        (Note.mk (v.noted cursor processed))) c' ∧
      ∀ cursor' s', Program.run env.answer (close number position) s =
          (.ok (.scanning cursor'), s') →
        Note.Ready ⟨v.noted cursor processed, s'⟩ cursor' c' := by
  have hbelow := h.below
  have hlimit := h.limit
  -- everything up to the block is done with, and noted
  have hready : Note.Backs ⟨v.noted cursor processed, s⟩ c ∧ c ≤ number ∧
      (number : Int) ≤ int64Max ∧ Note.Covers ⟨v.noted cursor processed, s⟩ number := by
    cases hclosing with
    | stop hv =>
      rw [Visit.noted_of_ne hv]
      exact ⟨h.backs, by omega, by omega, h.covers⟩
    | wait => exact ⟨h.backs, by omega, by omega, h.covers⟩
    | next =>
      obtain ⟨hmax, hstored⟩ := hv rfl
      exact ⟨h.noted hstored, by omega, hmax, h.next hstored⟩
  obtain ⟨hbacks, hle, hmax, hcovers⟩ := hready
  obtain ⟨c', hle', hclimbs, hbacks', hcovers'⟩ := moveTo_climbs env hbacks hle hmax hcovers
  have hmoments : (close number position).moments env.answer s =
      (Checkpoint.moveTo number).moments env.answer s := by
    unfold close
    rw [Program.moments_bind]
    cases Program.run env.answer (Checkpoint.moveTo number) s with
    | mk r s' => cases r <;> simp [Program.moments]
  refine ⟨c', by rwa [hmoments], fun cursor' s' hrun => ?_⟩
  unfold close at hrun
  rw [Program.run_bind] at hrun
  generalize Program.run env.answer (Checkpoint.moveTo number) s = result at hrun hbacks' hcovers'
  obtain ⟨r, s''⟩ := result
  cases r with
  | error e => cases hrun
  | ok _ =>
    cases hrun
    cases hclosing with
    | wait => exact ⟨hbacks', by omega, hlimit, hcovers'⟩
    | next => exact ⟨hbacks', by omega, by omega, hcovers'⟩

/-- Whatever follows from a visit, the checkpoint keeps its promise. -/
theorem settle_climbs (env : Surroundings ω) (setup : Setup) {v : Visit}
    (h : Note.Ready ⟨processed, s⟩ cursor c)
    (hv : v = .processed → (cursor : Int) ≤ int64Max ∧ (s.memory.block? cursor).isSome) :
    ∃ c', Climbs c (((settle setup cursor v).moments env.answer s).map
        (Note.mk (v.noted cursor processed))) c' ∧
      ∀ cursor' s', Program.run env.answer (settle setup cursor v) s =
          (.ok (.scanning cursor'), s') →
        Note.Ready ⟨v.noted cursor processed, s'⟩ cursor' c' := by
  have hbacks : Note.Backs ⟨v.noted cursor processed, s⟩ c := by
    by_cases hprocessed : v = .processed
    · subst hprocessed
      exact h.noted (hv rfl).2
    · rw [Visit.noted_of_ne hprocessed]
      exact h.backs
  -- what is seen before the checkpoint is moved is where the visit has ended
  have hbefore : ∀ {seen : List (Situation ω)}, (∀ s' ∈ seen, s' = s) →
      Climbs c (seen.map (Note.mk (v.noted cursor processed))) c := by
    intro seen hseen
    apply climbs_of_backs
    intro x hx
    obtain ⟨s', hs', rfl⟩ := List.mem_map.1 hx
    rw [hseen s' hs']
    exact hbacks
  have hsettling := settle_settling env setup cursor v s
  generalize (settle setup cursor v).moments env.answer s = moments at hsettling ⊢
  generalize Program.run env.answer (settle setup cursor v) s = result at hsettling ⊢
  cases hsettling with
  | failed hseen e => exact ⟨c, hbefore hseen, fun cursor' s' hrun => by cases hrun⟩
  | moved hseen hclosing =>
    obtain ⟨c', hclimbs, hend⟩ := close_climbs env h hv hclosing
    rw [List.map_append]
    exact ⟨c', (hbefore hseen).append hclimbs, hend⟩
  | kept hprocessed =>
    subst hprocessed
    obtain ⟨hmax, hstored⟩ := hv rfl
    have hbelow := h.below
    refine ⟨c, .nil c, fun cursor' s' hrun => ?_⟩
    cases hrun
    exact ⟨hbacks, by omega, by omega, h.next hstored⟩

/-- A scan that is at a block keeps the promises of the checkpoint. -/
theorem journal_climbs (env : Surroundings ω) (interval : Nat) (caller : String) (rounds : Nat)
    (h : Note.Ready ⟨processed, s⟩ cursor c) :
    ∃ c', Climbs c
      (journal env ⟨interval, Observer.standard caller⟩ rounds cursor processed s) c' := by
  induction rounds generalizing cursor processed s c with
  | zero => exact ⟨c, .nil c⟩
  | succ rounds ih =>
    obtain ⟨hmoments, hlast, hvisited⟩ :=
      Program.ensures_iff.1 (visit_keeps (fun _ h _ => h) h.at interval caller cursor)
    have hvisit : Climbs c (((visit ⟨interval, Observer.standard caller⟩ cursor).moments env.answer
        s).map (Note.mk processed)) c := by
      apply climbs_of_backs
      intro x hx
      obtain ⟨s', hs', rfl⟩ := List.mem_map.1 hx
      exact (h.keep (hmoments s' hs')).backs
    unfold journal Procedure.run
    cases hrun : Program.run env.answer (visit ⟨interval, Observer.standard caller⟩ cursor) s with
    | mk visited s' =>
      rw [hrun] at hlast hvisited
      cases visited with
      | error e => exact ⟨c, hvisit.append (.nil c)⟩
      | ok v =>
        obtain ⟨c', hsettle, hend⟩ := settle_climbs env
          ⟨interval, Observer.standard caller⟩ (h.keep hlast) (hvisited v rfl)
        have hround := hvisit.append hsettle
        simp only [← List.append_assoc]
        cases hsettled : Program.run env.answer
            (settle ⟨interval, Observer.standard caller⟩ cursor v) s' with
        | mk settled s'' =>
          match settled, hsettled with
          | .error e, _ => exact ⟨c', hround.append (.nil c')⟩
          | .ok (.stopped last), _ => exact ⟨c', hround.append (.nil c')⟩
          | .ok (.scanning cursor'), hsettled =>
            obtain ⟨c'', hmore⟩ := ih (hend cursor' s'' hsettled)
            exact ⟨c'', hround.append hmore⟩

/-- A run that starts after a checkpoint that keeps its promise is at a block before which
everything is done with. -/
theorem Note.Backs.ready (h : Note.Backs ⟨processed, s⟩ c) {s' : Situation ω}
    (hstart : Program.run env.answer (Checkpoint.start none) s = (.ok cursor, s')) :
    Note.Ready ⟨processed, s'⟩ cursor c := by
  have hrun := (start_reads env s).2
  rw [hstart, h.stored] at hrun
  obtain ⟨hresult, rfl⟩ := Prod.mk.inj hrun
  have hlimit := h.limit
  split at hresult
  · cases hresult
  · obtain rfl : cursor = c + 1 := by
      rw [← Checkpoint.succ_mod_word hlimit]
      exact Except.ok.inj hresult
    have hs := h.withWorld (env.fault (.config Checkpoint.key) s.world).2
    exact ⟨hs, Nat.lt_succ_self c, by omega, hs.covers⟩

theorem launchJournal_climbs (env : Surroundings ω) (interval : Nat) (caller : String)
    (rounds : Nat) (h : Note.Backs ⟨processed, s⟩ c) :
    ∃ c', Climbs c
      (launchJournal env ⟨interval, Observer.standard caller⟩ rounds processed s) c' := by
  have hs := h.withWorld (env.fault (.config Checkpoint.key) s.world).2
  have hfirst :
      Climbs c (((Checkpoint.start none).moments env.answer s).map (Note.mk processed)) c :=
    climbs_of_backs (by simp [(start_reads env s).1, hs])
  unfold launchJournal Procedure.run
  cases hstart : Program.run env.answer (Checkpoint.start none) s with
  | mk started s' =>
    cases started with
    | error e => exact ⟨c, hfirst.append (.nil c)⟩
    | ok cursor =>
      obtain ⟨c', hjournal⟩ := journal_climbs env interval caller rounds (h.ready hstart)
      exact ⟨c', hfirst.append hjournal⟩

/-- A new scanner remembers nothing, and finds the checkpoint as it was left. -/
theorem Note.Backs.restart (h : x.Backs c) (world : ω) :
    Note.Backs ⟨x.processed, ⟨world, x.situation.memory, Cache.empty⟩⟩ c :=
  ⟨h.stored, h.limit, h.covers, sound_of_wellFormed h.sound.memory world⟩

/-- The checkpoint climbs through the life of a store. -/
theorem Life.climbs {notes : List (Note ω)} (h : Life env notes) : ∃ c, Climbs 0 notes c := by
  induction h with
  | empty world =>
    refine ⟨0, .cons (Nat.le_refl 0) ⟨rfl, by decide, fun n hpos hn => by omega, ?_⟩ (.nil 0)⟩
    exact sound_of_wellFormed Memory.wellFormed_empty world
  | @run notes more last world interval rounds caller before hlast cut ih =>
    obtain ⟨c, hclimbs⟩ := ih
    have hnew := (hclimbs.last hlast).restart world
    obtain ⟨c', hjournal⟩ := launchJournal_climbs env interval caller rounds hnew
    obtain ⟨c'', hmore⟩ := hjournal.cut cut
    exact ⟨c'', hclimbs.append (.cons (Nat.le_refl c) hnew hmore)⟩

end

/-- Through all runs on a store that was empty at first, at every moment, the blocks up to the
checkpoint have been processed to a good end and are stored; and the checkpoint never falls. -/
theorem checkpoint_keeps_its_promise {env : Surroundings ω} {notes : List (Note ω)}
    (h : Life env notes) :
    (∀ x ∈ notes, ∃ c, Checkpoint.stored x.situation.memory = .ok c ∧
      ∀ n, 1 ≤ n → n ≤ c → n ∈ x.processed ∧ (x.situation.memory.block? n).isSome) ∧
    notes.Pairwise fun x y => ∀ c c', Checkpoint.stored x.situation.memory = .ok c →
      Checkpoint.stored y.situation.memory = .ok c' → c ≤ c' := by
  obtain ⟨c, hclimbs⟩ := h.climbs
  refine ⟨fun x hx => ?_, hclimbs.pairwise⟩
  obtain ⟨c₁, -, hbacks⟩ := hclimbs.mem hx
  exact ⟨c₁, hbacks.stored, hbacks.covers⟩

/-- What is noted of a run on the one block of a node, which goes on until it waits for the next. -/
def loneNotes : List (Note Unit) :=
  let beginning : Note Unit := ⟨[], ⟨(), Memory.empty, Cache.empty⟩⟩
  [beginning] ++ beginning :: launchJournal (Surroundings.steady (Answers.lone {} (.node "closed")))
    ⟨0, Observer.standard "caller"⟩ 2 [] beginning.situation

theorem checkpoint_keeps_its_promise_of_lone_block :
    Life (Surroundings.steady (Answers.lone {} (.node "closed"))) loneNotes ∧
      loneNotes.getLast?.map (fun x => (x.processed, Checkpoint.stored x.situation.memory)) =
        some ([1], .ok 1) ∧
      (∀ x ∈ loneNotes, ∃ c, Checkpoint.stored x.situation.memory = .ok c ∧
        ∀ n, 1 ≤ n → n ≤ c → n ∈ x.processed ∧ (x.situation.memory.block? n).isSome) ∧
      loneNotes.Pairwise fun x y => ∀ c c', Checkpoint.stored x.situation.memory = .ok c →
        Checkpoint.stored y.situation.memory = .ok c' → c ≤ c' := by
  have hlife : Life (Surroundings.steady (Answers.lone {} (.node "closed"))) loneNotes :=
    .run (.empty ()) rfl (List.prefix_refl _)
  exact ⟨hlife, rfl, checkpoint_keeps_its_promise hlife⟩

end ChainIndex.Scan
