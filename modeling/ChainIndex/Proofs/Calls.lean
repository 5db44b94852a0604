import ChainIndex.Program

/-!
# Calls of a run

What a program has done to its surroundings is the list of its calls: what it asked, with the reply
that it got. `Obeys` holds a program to a rule, which says what may be asked at all and which
replies are fatal: after one of these the program does nothing but fail. It is a property of the
tree, with laws for sequencing and recovery, so that no answering side has to be named before the
rule is put to use. `Obeys.ends` then finds a fatal reply at the end of every run that gets one.
`Returns` is the like for the values that a program can end with.
-/

namespace ChainIndex.Program

variable {I : Interface} {ε α β σ : Type}

/-! ## Calls -/

/-- A request, and the reply that it got. -/
structure Call (I : Interface) where
  request : I.Request
  reply : I.Reply request

/-- The calls of a run in their order. -/
def calls (answer : Answering I σ) : Program I ε α → σ → List (Call I)
  | .done _, _ => []
  | .fail _, _ => []
  | .ask request next, s =>
    ⟨request, (answer request s).1⟩ ::
      (next (answer request s).1).calls answer (answer request s).2

/-- The state of the answering side after some calls. -/
def after (answer : Answering I σ) : List (Call I) → σ → σ
  | [], s => s
  | call :: rest, s => after answer rest (answer call.request s).2

section

variable {answer : Answering I σ}

/-- A run leaves the state that its calls lead to. -/
theorem after_calls (p : Program I ε α) (s : σ) :
    after answer (p.calls answer s) s = (p.run answer s).2 := by
  induction p generalizing s with
  | done a => rfl
  | fail e => rfl
  | ask request next ih => exact ih (answer request s).1 (answer request s).2

/-- Every call of a run has the reply that the calls before it have led to. -/
theorem reply_of_calls {p : Program I ε α} {s : σ} {before later : List (Call I)} {call : Call I}
    (h : p.calls answer s = before ++ call :: later) :
    call.reply = (answer call.request (after answer before s)).1 := by
  induction p generalizing s before with
  | done a => simp [calls] at h
  | fail e => simp [calls] at h
  | ask request next ih =>
    cases before with
    | nil =>
      obtain ⟨rfl, -⟩ := List.cons.inj h
      rfl
    | cons first before =>
      obtain ⟨rfl, hrest⟩ := List.cons.inj h
      have hreply := ih _ hrest
      exact hreply

/-- The calls of a sequence are those of its first part and then those of its second. -/
theorem calls_bind (p : Program I ε α) (f : α → Program I ε β) (s : σ) :
    (p.bind f).calls answer s =
      p.calls answer s ++
        match p.run answer s with
        | (.ok a, s) => (f a).calls answer s
        | (.error _, _) => [] := by
  induction p generalizing s with
  | done a => rfl
  | fail e => rfl
  | ask request next ih => simp only [ask_bind, calls, run, ih, List.cons_append]

theorem calls_bind_of_ok {p : Program I ε α} {f : α → Program I ε β} {a : α} {s s' : σ}
    (h : p.run answer s = (.ok a, s')) :
    (p.bind f).calls answer s = p.calls answer s ++ (f a).calls answer s' := by
  rw [calls_bind, h]

/-- The outcome as a value takes the same calls. -/
theorem calls_attempt (p : Program I ε α) (s : σ) :
    p.attempt.calls answer s = p.calls answer s := by
  induction p generalizing s with
  | done a => rfl
  | fail e => rfl
  | ask request next ih => simp only [attempt, calls, ih]

end

/-- Each of some calls makes a request that the calls before it justify. -/
def Justified (justifies : List (Call I) → I.Request → Prop) (calls : List (Call I)) : Prop :=
  ∀ before call later, calls = before ++ call :: later → justifies before call.request

section

variable {justifies justifies' : List (Call I) → I.Request → Prop} {calls more : List (Call I)}

theorem justified_of_forall (h : ∀ call ∈ calls, ∀ before, justifies before call.request) :
    Justified justifies calls := by
  rintro before call later rfl
  exact h call (by simp) before

theorem justified_nil : Justified justifies [] := justified_of_forall nofun

theorem Justified.append (h : Justified justifies calls)
    (h' : Justified (fun before => justifies (calls ++ before)) more) :
    Justified justifies (calls ++ more) := by
  intro before call later hcalls
  rcases List.append_eq_append_iff.1 hcalls with ⟨rest, rfl, hrest⟩ | ⟨rest, rfl, hrest⟩
  · exact h' rest call later hrest
  · cases rest with
    | nil =>
      -- the call stands first in the second part
      have hfirst := h' [] call later hrest.symm
      rwa [List.append_nil, List.append_nil] at hfirst
    | cons first rest =>
      obtain ⟨rfl, rfl⟩ := List.cons.inj hrest
      exact h before call rest rfl

theorem Justified.mono (h : Justified justifies calls)
    (hweaker : ∀ before request, justifies before request → justifies' before request) :
    Justified justifies' calls := fun before call later hcalls =>
  hweaker before call.request (h before call later hcalls)

end

/-! ## Values -/

/-- Every value that a program can end with has a property, whatever replies it gets. -/
def Returns (P : α → Prop) : Program I ε α → Prop
  | .done a => P a
  | .fail _ => True
  | .ask _ next => ∀ reply, (next reply).Returns P

theorem Returns.bind {P : α → Prop} {Q : β → Prop} {p : Program I ε α} {f : α → Program I ε β}
    (hp : p.Returns P) (hf : ∀ a, P a → (f a).Returns Q) : (p.bind f).Returns Q := by
  induction p with
  | done a => exact hf a hp
  | fail e => trivial
  | ask request next ih => exact fun reply => ih reply (hp reply)

/-- What holds whatever a program does holds of its values. -/
theorem returns_of_forall {P : α → Prop} (h : ∀ a, P a) (p : Program I ε α) : p.Returns P := by
  induction p with
  | done a => exact h a
  | fail e => trivial
  | ask request next ih => exact ih

/-- The second part of a sequence tells what its values are. -/
theorem returns_bind {Q : β → Prop} (p : Program I ε α) {f : α → Program I ε β}
    (hf : ∀ a, (f a).Returns Q) : (p.bind f).Returns Q :=
  (returns_of_forall (fun _ => trivial) p).bind fun a _ => hf a

theorem Returns.attempt {P : α → Prop} {p : Program I ε α} (h : p.Returns P) :
    p.attempt.Returns fun r => ∀ a, r = .ok a → P a := by
  induction p with
  | done a =>
    rintro _ ⟨⟩
    exact h
  | fail e => exact nofun
  | ask request next ih => exact fun reply => ih reply (h reply)

/-- How a sequence goes on matters for the values only that its first part can end with. -/
theorem Returns.bind_congr {P : α → Prop} {p : Program I ε α} (h : p.Returns P)
    {f g : α → Program I ε β} (hfg : ∀ a, P a → f a = g a) : p.bind f = p.bind g := by
  induction p with
  | done a => exact hfg a h
  | fail e => rfl
  | ask request next ih =>
    exact congrArg (Program.ask request) (funext fun reply => ih reply (h reply))

/-! ## Rules -/

/-- What programs are held to. -/
structure Rule (I : Interface) (ε : Type) where
  /-- Whether a request may be made at all. -/
  allows : I.Request → Prop
  /-- The error of a reply that is fatal. -/
  fatal : (request : I.Request) → I.Reply request → Option ε

/-- A program that only makes requests that a rule allows, and fails at once with the error of any
fatal reply. -/
inductive Obeys (rule : Rule I ε) : Program I ε α → Prop where
  | done (a : α) : Obeys rule (.done a)
  | fail (e : ε) : Obeys rule (.fail e)
  | ask {request : I.Request} {next : I.Reply request → Program I ε α}
      (allowed : rule.allows request)
      (fatal : ∀ reply e, rule.fatal request reply = some e → next reply = .fail e)
      (rest : ∀ reply, Obeys rule (next reply)) : Obeys rule (.ask request next)

section

variable {rule rule' : Rule I ε}

/-- A program that obeys a rule obeys one that allows more and finds fewer replies fatal. -/
theorem Obeys.mono {p : Program I ε α} (h : p.Obeys rule)
    (hallows : ∀ request, rule.allows request → rule'.allows request)
    (hfatal : ∀ request reply e, rule.allows request → rule'.fatal request reply = some e →
      rule.fatal request reply = some e) : p.Obeys rule' := by
  induction h with
  | done a => exact .done a
  | fail e => exact .fail e
  | @ask request _ hallowed hends _ ih =>
    refine .ask (hallows request hallowed) (fun reply e he => ?_) ih
    exact hends reply e (hfatal request reply e hallowed he)

/-- The second part of a sequence has to obey for the values only that the first can end with. -/
theorem Obeys.bind_returns {P : α → Prop} {p : Program I ε α} {f : α → Program I ε β}
    (hp : p.Obeys rule) (hreturns : p.Returns P) (hf : ∀ a, P a → (f a).Obeys rule) :
    (p.bind f).Obeys rule := by
  induction hp with
  | done a => exact hf a hreturns
  | fail e => exact .fail e
  | ask hallowed hends _ ih =>
    refine .ask hallowed (fun reply e he => ?_) fun reply => ih reply (hreturns reply)
    rw [hends reply e he, fail_bind]

theorem Obeys.bind {p : Program I ε α} {f : α → Program I ε β} (hp : p.Obeys rule)
    (hf : ∀ a, (f a).Obeys rule) : (p.bind f).Obeys rule :=
  hp.bind_returns (returns_of_forall (fun _ => trivial) p) fun a _ => hf a

/-- A program that keeps to what two rules allow keeps to both at once. -/
theorem Obeys.and {p : Program I ε α} (h : p.Obeys rule) (h' : p.Obeys rule') :
    p.Obeys ⟨fun request => rule.allows request ∧ rule'.allows request, rule.fatal⟩ := by
  induction h with
  | done a => exact .done a
  | fail e => exact .fail e
  | ask hallowed hends _ ih =>
    cases h' with
    | ask hallowed' _ hrest' =>
      exact .ask ⟨hallowed, hallowed'⟩ hends fun reply => ih reply (hrest' reply)

/-- A handler that passes every fatal error on keeps to the rule. -/
theorem Obeys.recover {p : Program I ε α} {f : ε → Program I ε α} (hp : p.Obeys rule)
    (hpass : ∀ request reply e, rule.fatal request reply = some e → f e = .fail e)
    (hf : ∀ e, (f e).Obeys rule) : (p.recover f).Obeys rule := by
  induction hp with
  | done a => exact .done a
  | fail e => exact hf e
  | @ask request _ hallowed hends _ ih =>
    refine .ask hallowed (fun reply e he => ?_) ih
    rw [hends reply e he]
    exact hpass request reply e he

/-- What goes on with the outcome of a program has to fail with every error that is fatal there. The
program itself may be held to less. -/
theorem Obeys.attempt_bind {p : Program I ε α} {f : Except ε α → Program I ε β}
    (hp : p.Obeys rule) (hallows : ∀ request, rule.allows request → rule'.allows request)
    (hpass : ∀ request reply e, rule.allows request → rule'.fatal request reply = some e →
      rule.fatal request reply = some e ∧ f (.error e) = .fail e)
    (hf : ∀ r, (f r).Obeys rule') : (p.attempt.bind f).Obeys rule' := by
  induction hp with
  | done a => exact hf (.ok a)
  | fail e => exact hf (.error e)
  | @ask request next hallowed hends _ ih =>
    refine .ask (hallows request hallowed) (fun reply e he => ?_) ih
    obtain ⟨hfatal, hfail⟩ := hpass request reply e hallowed he
    show (next reply).attempt.bind f = _
    rw [hends reply e hfatal]
    exact hfail

/-! ## Runs under a rule -/

variable {answer : Answering I σ} {p : Program I ε α} {s : σ}

/-- Every call of a run is one that the rule allows. -/
theorem Obeys.allowed (h : p.Obeys rule) : ∀ call ∈ p.calls answer s, rule.allows call.request := by
  induction h generalizing s with
  | done a => simp [calls]
  | fail e => simp [calls]
  | ask hallowed _ _ ih =>
    intro call hcall
    rcases List.mem_cons.1 hcall with rfl | hcall
    · exact hallowed
    · exact ih _ call hcall

/-- A call with a fatal reply is the last one of its run, and the run fails with its error. -/
theorem Obeys.ends (h : p.Obeys rule) {before later : List (Call I)} {call : Call I} {e : ε}
    (hcalls : p.calls answer s = before ++ call :: later)
    (hfatal : rule.fatal call.request call.reply = some e) :
    later = [] ∧ p.run answer s = (.error e, (answer call.request (after answer before s)).2) := by
  induction h generalizing s before with
  | done a => simp [calls] at hcalls
  | fail e' => simp [calls] at hcalls
  | @ask request next _ hends _ ih =>
    cases before with
    | nil =>
      obtain ⟨rfl, hlater⟩ := List.cons.inj hcalls
      have hfail := hends (answer request s).1 e hfatal
      rw [hfail] at hlater
      refine ⟨hlater.symm, ?_⟩
      show (next (answer request s).1).run answer (answer request s).2 = _
      rw [hfail]
      rfl
    | cons first before =>
      obtain ⟨rfl, hrest⟩ := List.cons.inj hcalls
      exact ih _ hrest

/-- A sequence whose last call has a fatal reply gets it in its first part, which fails then, or in
its second. -/
theorem Obeys.last_of_bind {f : α → Program I ε β} (h : p.Obeys rule) {before : List (Call I)}
    {call : Call I} {e : ε} (hcalls : (p.bind f).calls answer s = before ++ [call])
    (hfatal : rule.fatal call.request call.reply = some e) :
    (∃ e' s', p.run answer s = (.error e', s') ∧ p.calls answer s = before ++ [call]) ∨
      ∃ a s' rest, p.run answer s = (.ok a, s') ∧ before = p.calls answer s ++ rest ∧
        (f a).calls answer s' = rest ++ [call] := by
  rw [calls_bind] at hcalls
  cases hrun : p.run answer s with
  | mk r s' =>
    rw [hrun] at hcalls
    cases r with
    | error e' =>
      rw [List.append_nil] at hcalls
      exact .inl ⟨e', s', rfl, hcalls⟩
    | ok a =>
      have hboth : p.calls answer s ++ (f a).calls answer s' = before ++ [call] := hcalls
      rcases List.eq_nil_or_concat ((f a).calls answer s') with hnone | ⟨rest, last, hsome⟩
      · -- then the first part would have failed
        rw [hnone, List.append_nil] at hboth
        have hends := (h.ends hboth hfatal).2
        rw [hrun] at hends
        cases hends
      · rw [List.concat_eq_append] at hsome
        rw [hsome, ← List.append_assoc] at hboth
        obtain ⟨rfl, hlast⟩ := List.append_inj' hboth rfl
        cases hlast
        exact .inr ⟨a, s', rest, rfl, rfl, hsome⟩

end

end ChainIndex.Program
