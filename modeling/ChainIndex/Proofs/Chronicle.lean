import ChainIndex.Proofs.Rounds
import ChainIndex.Proofs.Stages

/-!
# Chronicles

A chronicle is everything that scanners have done to a store that was empty at first: the stages of
all runs in their order, each with the number of its run. A run may have been cut short after any of
its stages. Every situation that can be reached has a chronicle, so that what holds of chronicles
says how things have become as they are.
-/

namespace ChainIndex.Scan

open Store (Memory)

variable {ω : Type}

/-- A stage of a run of a scanner. -/
abbrev Stage (ω : Type) := Program.Stage interface Error Position (Situation ω)

/-- A stage, and which run it belongs to. -/
structure Recorded (ω : Type) where
  run : Nat
  stage : Stage ω

/-- The number of runs, their stages, and how things stand after them. -/
inductive Chronicle (env : Surroundings ω) (resting : ω → ω → Prop)
    (starts : Option Nat → Prop) : Nat → List (Recorded ω) → Situation ω → Prop where
  | empty (world : ω) : Chronicle env resting starts 0 [] ⟨world, Memory.empty, Cache.empty⟩
  | run {n : Nat} {past : List (Recorded ω)} {s : Situation ω} {world : ω} {start : Option Nat}
      {done : List (Stage ω)} {last : Stage ω} (interval rounds : Nat) (caller : String)
      (before : Chronicle env resting starts n past s) (rest : resting s.world world)
      (allowed : starts start)
      (cut : done ++ [last] <+:
        (launch ⟨interval, Observer.standard caller⟩ start rounds).stages env.answer
          ⟨world, s.memory, Cache.empty⟩) :
      Chronicle env resting starts (n + 1) (past ++ (done ++ [last]).map (⟨n, ·⟩)) last.after

section

variable {env : Surroundings ω} {resting : ω → ω → Prop} {starts : Option Nat → Prop} {n : Nat}
  {past : List (Recorded ω)} {s : Situation ω}

/-- How things stand after a chronicle can be reached. -/
theorem Chronicle.reachable (h : Chronicle env resting starts n past s) :
    Reachable env resting starts s := by
  induction h with
  | empty world => exact .empty world
  | @run n past s world start done last interval rounds caller _ rest allowed cut ih =>
    refine .run interval rounds caller ih rest allowed ?_
    rw [Program.moments_eq_map_stages]
    exact List.mem_map_of_mem (cut.subset (by simp))

/-- Whatever can be reached if runs are told less can be reached if they are told more. -/
theorem Reachable.mono {starts' : Option Nat → Prop} (h : Reachable env resting starts s)
    (hstarts : ∀ start, starts start → starts' start) : Reachable env resting starts' s := by
  induction h with
  | empty world => exact .empty world
  | run interval rounds caller _ rest allowed moment ih =>
    exact .run interval rounds caller ih rest (hstarts _ allowed) moment

/-- Whatever can be reached has a chronicle. -/
theorem Reachable.chronicle (h : Reachable env resting starts s) :
    ∃ n past, Chronicle env resting starts n past s := by
  induction h with
  | empty world => exact ⟨0, [], .empty world⟩
  | run interval rounds caller _ rest allowed moment ih =>
    obtain ⟨n, past, hpast⟩ := ih
    rw [Program.moments_eq_map_stages] at moment
    obtain ⟨last, hlast, rfl⟩ := List.mem_map.1 moment
    obtain ⟨done, later, hstages⟩ := List.append_of_mem hlast
    have hcut : done ++ [last] <+: done ++ last :: later :=
      ⟨later, by rw [List.append_assoc, List.singleton_append]⟩
    rw [← hstages] at hcut
    exact ⟨n + 1, _, .run interval rounds caller hpast rest allowed hcut⟩

/-- A chronicle goes on with a run that is not cut short. -/
theorem Chronicle.whole {world : ω} {start : Option Nat} (interval rounds : Nat) (caller : String)
    (before : Chronicle env resting starts n past s) (rest : resting s.world world)
    (allowed : starts start)
    (hsome : (launch ⟨interval, Observer.standard caller⟩ start rounds).stages env.answer
      ⟨world, s.memory, Cache.empty⟩ ≠ []) :
    Chronicle env resting starts (n + 1)
      (past ++ ((launch ⟨interval, Observer.standard caller⟩ start rounds).stages env.answer
        ⟨world, s.memory, Cache.empty⟩).map (⟨n, ·⟩))
      (Program.run env.answer (launch ⟨interval, Observer.standard caller⟩ start rounds)
        ⟨world, s.memory, Cache.empty⟩).2 := by
  obtain ⟨done, last, hstages, hend⟩ := Program.exists_stages_eq_concat hsome
  rw [hend, hstages]
  exact .run interval rounds caller before rest allowed ⟨[], by rw [hstages, List.append_nil]⟩

/-- What stages keep that extend a chronicle, chronicles have. -/
theorem Chronicle.keeps {K : List (Recorded ω) → Memory → Prop}
    (h : Chronicle env resting starts n past s) (hempty : K [] Memory.empty)
    (hstep : ∀ {n past s} interval rounds caller start,
      Chronicle env resting starts n past s → ∀ world,
        ∀ x ∈ (launch ⟨interval, Observer.standard caller⟩ start rounds).stages env.answer
            ⟨world, s.memory, Cache.empty⟩,
          ∀ past', K past' x.before.memory → K (past' ++ [⟨n, x⟩]) x.after.memory) :
    K past s.memory := by
  induction h with
  | empty world => exact hempty
  | @run n past s world start done last interval rounds caller before _ _ cut ih =>
    refine Program.stages_keep (K := fun done s => K (past ++ done.map (⟨n, ·⟩)) s.memory)
      (fun done x hx hK => ?_) (by simpa using ih) cut
    rw [List.map_append, ← List.append_assoc]
    exact hstep interval rounds caller start before world x hx _ hK

/-- The runs of a chronicle are numbered in their order. -/
theorem Chronicle.run_lt (h : Chronicle env resting starts n past s) : ∀ x ∈ past, x.run < n := by
  induction h with
  | empty world => nofun
  | @run n past s world start done last interval rounds caller _ _ _ _ ih =>
    intro x hx
    rcases List.mem_append.1 hx with hx | hx
    · exact Nat.lt_succ_of_lt (ih x hx)
    · obtain ⟨stage, -, rfl⟩ := List.mem_map.1 hx
      exact Nat.lt_succ_self n

/-- Nothing that was in the store after a stage is taken away later. -/
theorem Chronicle.grows (h : Chronicle env resting starts n past s) :
    ∀ x ∈ past, x.stage.after.memory.Grows s.memory := by
  refine h.keeps (K := fun past m => ∀ x ∈ past, x.stage.after.memory.Grows m) nofun ?_
  intro n past s interval rounds caller start _ world x hx past' hgrows y hy
  rcases List.mem_append.1 hy with hy | hy
  · refine (hgrows y hy).trans ?_
    obtain ⟨request, next, hstage⟩ := Program.exists_of_mem_stages hx
    rw [hstage]
    exact env.answer_grows request x.before
  · rw [List.mem_singleton.1 hy]
    exact Memory.Grows.refl _

end

end ChainIndex.Scan
