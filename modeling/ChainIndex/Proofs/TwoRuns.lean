import ChainIndex.Proofs.Conduct

/-!
# Two runs

Two programs are run against two sides, whose states are related. As long as the programs ask the
same and are replied the same, both runs go the same way, and the relation is carried from request
to request: `Agree` says that they end with the same outcome in related states. Mostly the two
programs are the same, and it is the sides that differ. `Meet` says only that the states at the ends
are related, whatever the outcomes.
-/

namespace ChainIndex.Program

variable {I : Interface} {ε α β σ τ : Type}

/-- Both runs end with the same outcome, in states that are related. -/
def Agree (answer : Answering I σ) (answer' : Answering I τ) (R : σ → τ → Prop)
    (p q : Program I ε α) (s : σ) (t : τ) : Prop :=
  (p.run answer s).1 = (q.run answer' t).1 ∧ R (p.run answer s).2 (q.run answer' t).2

/-- Both runs end in states that are related. -/
def Meet (answer : Answering I σ) (answer' : Answering I τ) (R : σ → τ → Prop)
    (p q : Program I ε α) (s : σ) (t : τ) : Prop :=
  R (p.run answer s).2 (q.run answer' t).2

section

variable {answer : Answering I σ} {answer' : Answering I τ} {R : σ → τ → Prop} {s : σ} {t : τ}
  {p q : Program I ε α}

theorem agree_done {a : α} (hR : R s t) :
    Agree answer answer' R (.done a : Program I ε α) (.done a) s t :=
  ⟨rfl, hR⟩

theorem agree_fail {e : ε} (hR : R s t) :
    Agree answer answer' R (.fail e : Program I ε α) (.fail e) s t :=
  ⟨rfl, hR⟩

/-- A value that is at hand, or a failure, changes nothing. -/
theorem run_ofExcept (x : Except ε α) (s : σ) :
    (ofExcept x : Program I ε α).run answer s = (x, s) := by
  cases x <;> rfl

/-- Where both are replied the same to a request, they go on together. -/
theorem agree_ask {request : I.Request} {next next' : I.Reply request → Program I ε α}
    (hreply : (answer request s).1 = (answer' request t).1)
    (hnext : Agree answer answer' R (next (answer request s).1) (next' (answer request s).1)
      (answer request s).2 (answer' request t).2) :
    Agree answer answer' R (.ask request next) (.ask request next') s t := by
  unfold Agree at hnext ⊢
  show ((next (answer request s).1).run answer _).1 = ((next' (answer' request t).1).run answer' _).1
    ∧ R ((next (answer request s).1).run answer _).2 ((next' (answer' request t).1).run answer' _).2
  rwa [← hreply]

/-- Runs that end in related states, with outcomes that are the same as far as it matters for what
follows, go on together. -/
theorem agree_bind_of_map {γ : Type} {g : α → γ} {f f' : α → Program I ε β}
    (houtcome : (p.run answer s).1.map g = (q.run answer' t).1.map g)
    (hR : R (p.run answer s).2 (q.run answer' t).2)
    (hf : ∀ a a' s' t', g a = g a' → R s' t' → Agree answer answer' R (f a) (f' a') s' t') :
    Agree answer answer' R (p.bind f) (q.bind f') s t := by
  unfold Agree
  rw [run_bind, run_bind]
  revert houtcome hR
  obtain ⟨r, s'⟩ := p.run answer s
  obtain ⟨r', t'⟩ := q.run answer' t
  intro houtcome hR
  cases r with
  | ok a =>
    cases r' with
    | ok a' => exact hf a a' s' t' (Except.ok.inj houtcome) hR
    | error e' => cases houtcome
  | error e =>
    cases r' with
    | ok a' => cases houtcome
    | error e' => exact ⟨congrArg Except.error (Except.error.inj houtcome), hR⟩

theorem Agree.bind {f f' : α → Program I ε β} (hp : Agree answer answer' R p q s t)
    (hf : ∀ a s' t', R s' t' → Agree answer answer' R (f a) (f' a) s' t') :
    Agree answer answer' R (p.bind f) (q.bind f') s t := by
  refine agree_bind_of_map (congrArg (Except.map id) hp.1) hp.2 ?_
  rintro a a' s' t' (rfl : a = a') hR
  exact hf a s' t' hR

theorem Agree.meet (hp : Agree answer answer' R p q s t) : Meet answer answer' R p q s t :=
  hp.2

/-- What follows an agreement may end with whatever outcomes. -/
theorem Agree.bind_meet {f f' : α → Program I ε β} (hp : Agree answer answer' R p q s t)
    (hf : ∀ a s' t', R s' t' → Meet answer answer' R (f a) (f' a) s' t') :
    Meet answer answer' R (p.bind f) (q.bind f') s t := by
  obtain ⟨hsame, hR⟩ := hp
  unfold Meet
  rw [run_bind, run_bind]
  revert hsame hR
  obtain ⟨r, s'⟩ := p.run answer s
  obtain ⟨r', t'⟩ := q.run answer' t
  rintro (rfl : r = r') hR
  cases r with
  | ok a => exact hf a s' t' hR
  | error e => exact hR

theorem agree_decode {x : Except ε β} {f f' : β → Program I ε α} (hR : R s t)
    (hf : ∀ b, x = .ok b → Agree answer answer' R (f b) (f' b) s t) :
    Agree answer answer' R ((ofExcept x).bind f) ((ofExcept x).bind f') s t := by
  cases x with
  | ok b => exact hf b rfl
  | error e => exact agree_fail hR

theorem meet_decode {x : Except ε β} {f f' : β → Program I ε α} (hR : R s t)
    (hf : ∀ b, x = .ok b → Meet answer answer' R (f b) (f' b) s t) :
    Meet answer answer' R ((ofExcept x).bind f) ((ofExcept x).bind f') s t := by
  cases x with
  | ok b => exact hf b rfl
  | error e => exact hR

/-- The runs of one obedient program agree if both sides reply the same to every request that its
rule allows, and stay related. -/
theorem Obeys.agree {rule : Rule I ε} (hp : p.Obeys rule)
    (hstep : ∀ request s t, rule.allows request → R s t →
      (answer request s).1 = (answer' request t).1 ∧ R (answer request s).2 (answer' request t).2)
    (hR : R s t) : Agree answer answer' R p p s t := by
  induction hp generalizing s t with
  | done a => exact agree_done hR
  | fail e => exact agree_fail hR
  | ask hallowed _ _ ih =>
    obtain ⟨hreply, hnext⟩ := hstep _ s t hallowed hR
    exact agree_ask hreply (ih _ hnext)

end

end ChainIndex.Program
