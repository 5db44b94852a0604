/-!
# Programs

A program is a finite tree of requests to its surroundings: it ends with a value, fails with an
error, or asks something and goes on with the reply. Who answers is left open, so one program can
run against a store in memory, a database, a node, or an adversary that answers as it likes; what
it asked, and when, is part of the program and not of the answering side.

`run` puts a program in front of an answering side with a state, and the lemmas beside it say how
that goes through sequencing and recovery.
-/

namespace ChainIndex

/-- What can be asked, and what kind of reply each request gets. -/
structure Interface where
  Request : Type
  Reply : Request → Type

/-- A tree of requests that ends with a value of type `α` or an error of type `ε`. -/
inductive Program (I : Interface) (ε α : Type) where
  | done (a : α)
  | fail (e : ε)
  | ask (request : I.Request) (next : I.Reply request → Program I ε α)

namespace Program

variable {I : Interface} {ε α β σ : Type}

/-- Go on with the value of a program. -/
def bind : Program I ε α → (α → Program I ε β) → Program I ε β
  | .done a, f => f a
  | .fail e, _ => .fail e
  | .ask request next, f => .ask request fun reply => (next reply).bind f

/-- Go on where a program fails. -/
def recover : Program I ε α → (ε → Program I ε α) → Program I ε α
  | .done a, _ => .done a
  | .fail e, f => f e
  | .ask request next, f => .ask request fun reply => (next reply).recover f

instance : Monad (Program I ε) where
  pure := .done
  bind := bind

instance : MonadExcept ε (Program I ε) where
  throw := .fail
  tryCatch := recover

/-- A result that is already there. -/
def ofExcept : Except ε α → Program I ε α
  | .ok a => .done a
  | .error e => .fail e

/-- The outcome of a program as a value. -/
def attempt : Program I ε α → Program I ε (Except ε α)
  | .done a => .done (.ok a)
  | .fail e => .done (.error e)
  | .ask request next => .ask request fun reply => (next reply).attempt

/-- The side that answers requests, with a state of its own. -/
abbrev Answering (I : Interface) (σ : Type) := (request : I.Request) → σ → I.Reply request × σ

/-- Run a program against an answering side. -/
def run (answer : Answering I σ) : Program I ε α → σ → Except ε α × σ
  | .done a, s => (.ok a, s)
  | .fail e, s => (.error e, s)
  | .ask request next, s =>
    let (reply, s) := answer request s
    (next reply).run answer s

/-! ## Laws -/

@[simp] theorem pure_eq (a : α) : (pure a : Program I ε α) = .done a := rfl

@[simp] theorem bind_eq (p : Program I ε α) (f : α → Program I ε β) : p >>= f = p.bind f := rfl

@[simp] theorem done_bind (a : α) (f : α → Program I ε β) : (done a).bind f = f a := rfl

@[simp] theorem fail_bind (e : ε) (f : α → Program I ε β) : (fail e).bind f = .fail e := rfl

@[simp] theorem ask_bind (request : I.Request) (next : I.Reply request → Program I ε α)
    (f : α → Program I ε β) :
    (ask request next).bind f = .ask request fun reply => (next reply).bind f := rfl

/-- A program followed by nothing is the program. -/
theorem bind_done (p : Program I ε α) : p.bind .done = p := by
  induction p with
  | done => rfl
  | fail => rfl
  | ask request next ih => exact congrArg (ask request) (funext ih)

/-- Sequences nest either way. -/
theorem bind_assoc {γ : Type} (p : Program I ε α) (f : α → Program I ε β)
    (g : β → Program I ε γ) : (p.bind f).bind g = p.bind fun a => (f a).bind g := by
  induction p with
  | done => rfl
  | fail => rfl
  | ask request next ih => exact congrArg (ask request) (funext ih)

instance : LawfulMonad (Program I ε) :=
  LawfulMonad.mk' _ bind_done (fun _ _ => rfl) bind_assoc

/-- A sequence runs its second part in the state that the first has left, unless the first fails. -/
theorem run_bind (answer : Answering I σ) (p : Program I ε α) (f : α → Program I ε β) (s : σ) :
    (p.bind f).run answer s =
      match p.run answer s with
      | (.ok a, s) => (f a).run answer s
      | (.error e, s) => (.error e, s) := by
  induction p generalizing s with
  | done => rfl
  | fail => rfl
  | ask request next ih => exact ih (answer request s).1 (answer request s).2

/-- A sequence that ends with a value has two parts that do. -/
theorem of_run_bind {answer : Answering I σ} {p : Program I ε α} {f : α → Program I ε β} {b : β}
    {s s' : σ} (h : (p.bind f).run answer s = (.ok b, s')) :
    ∃ a s₁, p.run answer s = (.ok a, s₁) ∧ (f a).run answer s₁ = (.ok b, s') := by
  rw [run_bind] at h
  split at h
  · rename_i a s₁ hrun
    exact ⟨a, s₁, hrun, h⟩
  · cases h

/-- A result that is there and no error is the value. -/
theorem of_run_ofExcept {answer : Answering I σ} {x : Except ε α} {a : α} {s s' : σ}
    (h : (ofExcept x).run answer s = (.ok a, s')) : x = .ok a ∧ s' = s := by
  cases x with
  | ok b =>
    cases h
    exact ⟨rfl, rfl⟩
  | error e => cases h

/-- A result that is no error is the only value that there is. -/
theorem eq_ok_of_toBool {r : Except ε Unit} (h : r.toBool) : r = .ok () := by
  cases r with
  | ok a => rfl
  | error e => cases h

/-- Recovery runs its second part in the state that the failure has left. -/
theorem run_recover (answer : Answering I σ) (p : Program I ε α) (f : ε → Program I ε α) (s : σ) :
    (p.recover f).run answer s =
      match p.run answer s with
      | (.ok a, s) => (.ok a, s)
      | (.error e, s) => (f e).run answer s := by
  induction p generalizing s with
  | done => rfl
  | fail => rfl
  | ask request next ih => exact ih (answer request s).1 (answer request s).2

/-- The outcome as a value is the outcome, and the state is the same. -/
theorem run_attempt (answer : Answering I σ) (p : Program I ε α) (s : σ) :
    p.attempt.run answer s = (.ok (p.run answer s).1, (p.run answer s).2) := by
  induction p generalizing s with
  | done => rfl
  | fail => rfl
  | ask request next ih => exact ih (answer request s).1 (answer request s).2

end Program

end ChainIndex
