import ChainIndex.Proofs.Calls
import ChainIndex.Proofs.Moments

/-!
# Stages of a run

A stage of a run is one exchange with its surroundings: what is left of the program when it asks,
and the states of the answering side before and after the reply. Moments only tell which states a
run goes through, stages also tell what it is about to do there. `Along` says of a run that
something holds between the two states of each stage, and something else of its outcome. The laws
follow the ones of `run`.
-/

namespace ChainIndex.Program

variable {I : Interface} {ε α β σ : Type}

/-- What is left of a program when it asks something, and the states before and after the reply. -/
structure Stage (I : Interface) (ε α σ : Type) where
  task : Program I ε α
  before : σ
  after : σ

/-- The stage of a program that is part of another one. -/
def Stage.within (f : Program I ε α → Program I ε β) (x : Stage I ε α σ) : Stage I ε β σ :=
  ⟨f x.task, x.before, x.after⟩

/-- What is asked at a stage. -/
def Stage.request? (x : Stage I ε α σ) : Option I.Request :=
  match x.task with
  | .ask request _ => some request
  | _ => none

/-- The stages of a run in their order. -/
def stages (answer : Answering I σ) : Program I ε α → σ → List (Stage I ε α σ)
  | .done _, _ => []
  | .fail _, _ => []
  | .ask request next, s =>
    ⟨.ask request next, s, (answer request s).2⟩ ::
      (next (answer request s).1).stages answer (answer request s).2

section

variable {answer : Answering I σ} {p : Program I ε α} {s : σ}

/-- The moments of a run are those after its stages. -/
theorem moments_eq_map_stages (p : Program I ε α) (s : σ) :
    p.moments answer s = (p.stages answer s).map (·.after) := by
  induction p generalizing s with
  | done a => rfl
  | fail e => rfl
  | ask request next ih => simp only [moments, stages, List.map_cons, ih]

/-- A run ends after its last stage. -/
theorem run_eq_getLastD (p : Program I ε α) (s : σ) :
    (p.run answer s).2 = ((p.stages answer s).map (·.after)).getLastD s := by
  induction p generalizing s with
  | done a => rfl
  | fail e => rfl
  | ask request next ih =>
    rw [stages, List.map_cons, List.getLastD_cons]
    exact ih _ _

/-- A run that asks something ends after one of its stages, the last. -/
theorem exists_stages_eq_concat (hsome : p.stages answer s ≠ []) :
    ∃ done last, p.stages answer s = done ++ [last] ∧ (p.run answer s).2 = last.after := by
  obtain ⟨done, last, hstages⟩ := (List.eq_nil_or_concat _).resolve_left hsome
  rw [List.concat_eq_append] at hstages
  refine ⟨done, last, hstages, ?_⟩
  rw [run_eq_getLastD, hstages, List.map_append, List.map_singleton, List.getLastD_concat]

/-- The stages of a sequence are those of its first part and then those of its second. -/
theorem stages_bind (p : Program I ε α) (f : α → Program I ε β) (s : σ) :
    (p.bind f).stages answer s =
      (p.stages answer s).map (·.within (·.bind f)) ++
        match p.run answer s with
        | (.ok a, s) => (f a).stages answer s
        | (.error _, _) => [] := by
  induction p generalizing s with
  | done a => rfl
  | fail e => rfl
  | ask request next ih =>
    simp only [ask_bind, stages, run, ih, List.map_cons, List.cons_append]
    rfl

/-- What goes on with the outcome of a program has its stages after those of the program. -/
theorem stages_attempt_bind (p : Program I ε α) (f : Except ε α → Program I ε β) (s : σ) :
    (p.attempt.bind f).stages answer s =
      (p.stages answer s).map (·.within fun task => task.attempt.bind f) ++
        (f (p.run answer s).1).stages answer (p.run answer s).2 := by
  induction p generalizing s with
  | done a => rfl
  | fail e => rfl
  | ask request next ih =>
    simp only [attempt, ask_bind, stages, run, ih, List.map_cons, List.cons_append]
    rfl

/-- Every stage asks something. -/
theorem exists_of_mem_stages {x : Stage I ε α σ} (hx : x ∈ p.stages answer s) :
    ∃ request next, x = ⟨.ask request next, x.before, (answer request x.before).2⟩ := by
  induction p generalizing s with
  | done a => cases hx
  | fail e => cases hx
  | ask request next ih =>
    rcases List.mem_cons.1 hx with rfl | hx
    · exact ⟨request, next, rfl⟩
    · exact ih _ hx

/-- Every stage of an obedient run asks what the rule allows. -/
theorem Obeys.asks {rule : Rule I ε} (h : p.Obeys rule) {x : Stage I ε α σ}
    (hx : x ∈ p.stages answer s) :
    ∃ request next, rule.allows request ∧
      x = ⟨.ask request next, x.before, (answer request x.before).2⟩ := by
  induction h generalizing s with
  | done a => cases hx
  | fail e => cases hx
  | @ask request next hallowed _ _ ih =>
    rcases List.mem_cons.1 hx with rfl | hx
    · exact ⟨request, next, hallowed, rfl⟩
    · exact ih _ hx

/-- A stage asks the same in a program that goes on where its own program ends. -/
theorem request?_within {x : Stage I ε α σ} (hx : x ∈ p.stages answer s)
    {f : Program I ε α → Program I ε β}
    (hf : ∀ request next, ∃ next', f (.ask request next) = .ask request next') :
    (x.within f).request? = x.request? := by
  obtain ⟨request, next, hstage⟩ := exists_of_mem_stages hx
  obtain ⟨next', hnext⟩ := hf request next
  rw [hstage]
  simp only [Stage.request?, Stage.within, hnext]

/-! ## Parts of runs -/

/-- A cut lies in the first part of a list, or behind it in the second. -/
theorem cut_append {α : Type} {first second done : List α} {last : α}
    (h : done ++ [last] <+: first ++ second) :
    done ++ [last] <+: first ∨ ∃ done', done = first ++ done' ∧ done' ++ [last] <+: second := by
  rcases List.prefix_or_prefix_of_prefix h (List.prefix_append first second) with hfirst | hlonger
  · exact .inl hfirst
  · rcases List.prefix_concat_iff.1 hlonger with rfl | ⟨done', rfl⟩
    · exact .inl List.prefix_rfl
    · rw [List.append_assoc, List.prefix_append_right_inj] at h
      exact .inr ⟨done', rfl, h⟩

theorem cut_map {α β : Type} {f : α → β} {l : List α} {done : List β} {last : β}
    (h : done ++ [last] <+: l.map f) :
    ∃ done' last', done = done'.map f ∧ last = f last' ∧ done' ++ [last'] <+: l := by
  obtain ⟨all, hall, hsame⟩ := List.prefix_map_iff.1 h
  obtain ⟨done', rest, rfl, rfl, hrest⟩ := List.map_eq_append_iff.1 hsame.symm
  obtain ⟨last', rfl, rfl⟩ := List.map_eq_singleton_iff.1 hrest
  exact ⟨done', last', rfl, rfl, hall⟩

/-- What a stage keeps, the stages up to any point of a run keep. -/
theorem stages_keep {K : List (Stage I ε α σ) → σ → Prop}
    (hstep : ∀ done x, x ∈ p.stages answer s → K done x.before → K (done ++ [x]) x.after)
    (h : K [] s) {done : List (Stage I ε α σ)} {last : Stage I ε α σ}
    (hcut : done ++ [last] <+: p.stages answer s) : K (done ++ [last]) last.after := by
  induction p generalizing K s done with
  | done a => simp [stages] at hcut
  | fail e => simp [stages] at hcut
  | ask request next ih =>
    have hfirst := hstep [] _ List.mem_cons_self h
    cases done with
    | nil =>
      obtain ⟨rfl, -⟩ := List.cons_prefix_cons.1 hcut
      exact hfirst
    | cons first done =>
      obtain ⟨rfl, hrest⟩ := List.cons_prefix_cons.1 hcut
      -- the rest of the run has the first stage behind it
      have hkept := ih (answer request s).1
        (K := fun later => K (⟨.ask request next, s, (answer request s).2⟩ :: later))
        (fun done x hx hK => hstep _ x (List.mem_cons_of_mem _ hx) hK) hfirst hrest
      exact hkept

/-- From a state, every stage of a run leads from a state to one that `T` relates to it, and the
outcome and the last state have `Q`. -/
def Along (answer : Answering I σ) (T : σ → σ → Prop) (Q : Except ε α → σ → Prop) :
    Program I ε α → σ → Prop
  | .done a, s => Q (.ok a) s
  | .fail e, s => Q (.error e) s
  | .ask request next, s =>
    T s (answer request s).2 ∧
      (next (answer request s).1).Along answer T Q (answer request s).2

variable {T : σ → σ → Prop} {Q Q' : Except ε α → σ → Prop}

theorem along_iff : p.Along answer T Q s ↔
    (∀ x ∈ p.stages answer s, T x.before x.after) ∧ Q (p.run answer s).1 (p.run answer s).2 := by
  induction p generalizing s with
  | done a => simp [Along, stages, run]
  | fail e => simp [Along, stages, run]
  | ask request next ih => simp [Along, stages, run, ih, and_assoc]

theorem Along.mono (h : p.Along answer T Q s) (hQ : ∀ r s, Q r s → Q' r s) :
    p.Along answer T Q' s := by
  rw [along_iff] at h ⊢
  exact ⟨h.1, hQ _ _ h.2⟩

/-- A sequence goes along like its first part, and like its second part from where that ends. -/
theorem along_bind {f : α → Program I ε β} {Q : Except ε β → σ → Prop} :
    (p.bind f).Along answer T Q s ↔
      p.Along answer T
        (fun r s => match r with
          | .ok a => (f a).Along answer T Q s
          | .error e => Q (.error e) s) s := by
  induction p generalizing s with
  | done a => rfl
  | fail e => rfl
  | ask request next ih => simp only [ask_bind, Along, ih]

theorem Along.bind {f : α → Program I ε β} {Q' : Except ε β → σ → Prop}
    (hp : p.Along answer T Q s) (herror : ∀ e s', Q (.error e) s' → Q' (.error e) s')
    (hf : ∀ a s', Q (.ok a) s' → (f a).Along answer T Q' s') :
    (p.bind f).Along answer T Q' s := by
  refine along_bind.2 (hp.mono fun r s' hs' => ?_)
  cases r with
  | ok a => exact hf a s' hs'
  | error e => exact herror e s' hs'

/-- Recovery goes on from where the failure has ended. -/
theorem along_recover {f : ε → Program I ε α} :
    (p.recover f).Along answer T Q s ↔
      p.Along answer T
        (fun r s => match r with
          | .ok a => Q (.ok a) s
          | .error e => (f e).Along answer T Q s) s := by
  induction p generalizing s with
  | done a => rfl
  | fail e => rfl
  | ask request next ih => simp only [recover, Along, ih]

/-- The outcome as a value goes along like the outcome. -/
theorem along_attempt {Q : Except ε (Except ε α) → σ → Prop} :
    p.attempt.Along answer T Q s ↔ p.Along answer T (fun r s => Q (.ok r) s) s := by
  induction p generalizing s with
  | done a => rfl
  | fail e => rfl
  | ask request next ih => simp only [attempt, Along, ih]

/-- What every request that a rule allows leads to is what an obedient run goes along. -/
theorem Obeys.along {rule : Rule I ε} (h : p.Obeys rule)
    (hT : ∀ request s, rule.allows request → T s (answer request s).2)
    (hQ : Q (p.run answer s).1 (p.run answer s).2) : p.Along answer T Q s := by
  refine along_iff.2 ⟨fun x hx => ?_, hQ⟩
  obtain ⟨request, next, hallowed, hstage⟩ := h.asks hx
  rw [hstage]
  exact hT request x.before hallowed

/-- What every request that a rule allows leads to, as long as something is kept that it keeps as
well, is what an obedient run goes along. -/
theorem Obeys.along_keeping {rule : Rule I ε} {M : σ → Prop} (h : p.Obeys rule)
    (hstep : ∀ request s, rule.allows request → M s →
      T s (answer request s).2 ∧ M (answer request s).2) (hs : M s) :
    p.Along answer T (fun _ s' => M s') s := by
  induction h generalizing s with
  | done a => exact hs
  | fail e => exact hs
  | ask hallowed _ _ ih =>
    obtain ⟨hT, hM⟩ := hstep _ s hallowed hs
    exact ⟨hT, ih _ hM⟩

/-- What every request that a rule allows keeps is kept by an obedient run. -/
theorem Obeys.keeps {rule : Rule I ε} {M : σ → Prop} (h : p.Obeys rule)
    (hM : ∀ request s, rule.allows request → M s → M (answer request s).2) (hs : M s) :
    M (p.run answer s).2 := by
  induction h generalizing s with
  | done a => exact hs
  | fail e => exact hs
  | ask hallowed _ _ ih => exact ih _ (hM _ s hallowed hs)

/-- What every request that a rule allows keeps, an obedient run keeps at all its moments. -/
theorem Obeys.ensures {rule : Rule I ε} {M : σ → Prop} (h : p.Obeys rule)
    (answer : Answering I σ)
    (hM : ∀ request s, rule.allows request → M s → M (answer request s).2) (hs : M s) :
    p.Ensures answer M
      (fun r s' => M s' ∧ r = (p.run answer s).1 ∧ s' = (p.run answer s).2) s := by
  refine ensures_iff.2 ⟨?_, h.keeps hM hs, rfl, rfl⟩
  induction h generalizing s with
  | done a => exact nofun
  | fail e => exact nofun
  | ask hallowed _ _ ih =>
    intro s' hs'
    rcases List.mem_cons.1 hs' with rfl | hs'
    · exact hM _ s hallowed hs
    · exact ih _ (hM _ s hallowed hs) s' hs'

end

end ChainIndex.Program
