import ChainIndex.Program

/-!
# Moments of a run

A run of a program can be cut short wherever it waits for a reply, so that what has to hold of it
has to hold at every moment. `moments` lists the states of the answering side, one after each reply;
`Ensures` says of a run that something holds at each of its moments, and something else of its
outcome. The laws follow the ones of `run`.
-/

namespace ChainIndex.Program

variable {I : Interface} {ε α β σ : Type}

/-- The states of the answering side after each reply of a run, in their order. -/
def moments (answer : Answering I σ) : Program I ε α → σ → List σ
  | .done _, _ => []
  | .fail _, _ => []
  | .ask request next, s =>
    (answer request s).2 :: (next (answer request s).1).moments answer (answer request s).2

/-- The state that a run comes to is one of its moments, if it has any. -/
theorem getLastD_mem_of_ne_nil {moments : List σ} (s : σ) (h : moments ≠ []) :
    moments.getLastD s ∈ moments := by
  rw [List.getLastD_eq_getLast?, List.getLast?_eq_some_getLast h]
  exact List.getLast_mem h

/-- A run ends where it starts or at one of its moments. -/
theorem run_eq_or_mem_moments (answer : Answering I σ) (p : Program I ε α) (s : σ) :
    (p.run answer s).2 = s ∨ (p.run answer s).2 ∈ p.moments answer s := by
  induction p generalizing s with
  | done a => exact .inl rfl
  | fail e => exact .inl rfl
  | ask request next ih =>
    rcases ih _ (answer request s).2 with hlast | hlater
    · exact .inr (List.mem_cons.2 (.inl hlast))
    · exact .inr (List.mem_cons_of_mem _ hlater)

/-- A run that asks something has its end among its moments. -/
theorem run_mem_moments {answer : Answering I σ} {request : I.Request}
    {next : I.Reply request → Program I ε α} {s : σ} :
    ((ask request next).run answer s).2 ∈ (ask request next).moments answer s := by
  rcases run_eq_or_mem_moments answer (next (answer request s).1) (answer request s).2 with
    hlast | hlater
  · exact List.mem_cons.2 (.inl hlast)
  · exact List.mem_cons_of_mem _ hlater

/-- From a state, every moment of a program's run has `M`, and its outcome and last state have
`Q`. -/
def Ensures (answer : Answering I σ) (M : σ → Prop) (Q : Except ε α → σ → Prop) :
    Program I ε α → σ → Prop
  | .done a, s => Q (.ok a) s
  | .fail e, s => Q (.error e) s
  | .ask request next, s =>
    M (answer request s).2 ∧
      (next (answer request s).1).Ensures answer M Q (answer request s).2

section

variable {answer : Answering I σ} {M M' : σ → Prop} {Q Q' : Except ε α → σ → Prop}

/-- What a run ensures is what its moments and its outcome have. -/
theorem ensures_iff {p : Program I ε α} {s : σ} :
    p.Ensures answer M Q s ↔
      (∀ s' ∈ p.moments answer s, M s') ∧ Q (p.run answer s).1 (p.run answer s).2 := by
  induction p generalizing s with
  | done a => simp [Ensures, moments, run]
  | fail e => simp [Ensures, moments, run]
  | ask request next ih => simp [Ensures, moments, run, ih, and_assoc]

/-- Less is ensured as well. -/
theorem Ensures.mono {p : Program I ε α} {s : σ} (h : p.Ensures answer M Q s)
    (hM : ∀ s, M s → M' s) (hQ : ∀ r s, Q r s → Q' r s) : p.Ensures answer M' Q' s := by
  rw [ensures_iff] at h ⊢
  exact ⟨fun s' hs' => hM s' (h.1 s' hs'), hQ _ _ h.2⟩

/-- A sequence ensures what its first part does, and its second part from where that ends. -/
theorem ensures_bind {p : Program I ε α} {f : α → Program I ε β} {s : σ}
    {Q : Except ε β → σ → Prop} :
    (p.bind f).Ensures answer M Q s ↔
      p.Ensures answer M
        (fun r s => match r with
          | .ok a => (f a).Ensures answer M Q s
          | .error e => Q (.error e) s) s := by
  induction p generalizing s with
  | done a => rfl
  | fail e => rfl
  | ask request next ih => simp only [ask_bind, Ensures, ih]

/-- Recovery goes on from where the failure has ended. -/
theorem ensures_recover {p : Program I ε α} {f : ε → Program I ε α} {s : σ} :
    (p.recover f).Ensures answer M Q s ↔
      p.Ensures answer M
        (fun r s => match r with
          | .ok a => Q (.ok a) s
          | .error e => (f e).Ensures answer M Q s) s := by
  induction p generalizing s with
  | done a => rfl
  | fail e => rfl
  | ask request next ih => simp only [recover, Ensures, ih]

/-- The outcome as a value is ensured like the outcome. -/
theorem ensures_attempt {p : Program I ε α} {s : σ}
    {Q : Except ε (Except ε α) → σ → Prop} :
    p.attempt.Ensures answer M Q s ↔ p.Ensures answer M (fun r s => Q (.ok r) s) s := by
  induction p generalizing s with
  | done a => rfl
  | fail e => rfl
  | ask request next ih => simp only [attempt, Ensures, ih]

/-- The moments of a sequence are those of its first part and then those of its second. -/
theorem moments_bind (p : Program I ε α) (f : α → Program I ε β) (s : σ) :
    (p.bind f).moments answer s =
      p.moments answer s ++
        match p.run answer s with
        | (.ok a, s) => (f a).moments answer s
        | (.error _, _) => [] := by
  induction p generalizing s with
  | done a => rfl
  | fail e => rfl
  | ask request next ih => simp only [ask_bind, moments, run, ih, List.cons_append]

end

end ChainIndex.Program
