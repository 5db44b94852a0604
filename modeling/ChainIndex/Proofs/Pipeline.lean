import ChainIndex.Observer.Pipeline
import ChainIndex.Proofs.Calls
import Mathlib.Data.List.FinRange

/-!
# A pipeline of observers

Which observers of a pipeline see an operation, and in which order. To tell, the observers are
called through stand-ins: a stand-in does nothing but ask for one call of the observer at its place,
and the side that answers lets that observer run. A pipeline of stand-ins then comes to the same as
the pipeline itself, whatever the observers do and remember, and its calls are the calls of
observers.
-/

namespace ChainIndex.Observer

open Program (Answering Call)

variable {I : Interface} {σ : Type} {n : Nat}

/-! ## Calls of observers -/

/-- What can be asked of some observers: that one of them looks at an operation. -/
def calling (n : Nat) : Interface where
  Request := Fin n × Observation
  Reply _ := Except Error Unit

/-- Asks for the observer at a place, and does nothing else. -/
def standIn (place : Fin n) : Observer (calling n) where
  name := ""
  apply seen := .ask ((place, seen) : (calling n).Request) Program.ofExcept

/-- Stand-ins for all observers of a pipeline. -/
def standIns (n : Nat) : List (Observer (calling n)) := (List.finRange n).map standIn

/-- Observers are called by letting them run. -/
def answerCall (observers : List (Observer I)) (answer : Answering I σ) :
    Answering (calling observers.length) σ
  | (place, seen), s => ((observers.get place).apply seen).run answer s

/-- Show operations one after another, whatever comes of each. The outcomes in their order. -/
def applyEach (observers : List (Observer I)) :
    List Observation → Program I Error (List (Except Error Unit))
  | [] => .done []
  | seen :: rest =>
    (applyAll observers seen).attempt.bind fun outcome =>
      (applyEach observers rest).bind fun outcomes => .done (outcome :: outcomes)

/-! ## Stand-ins -/

/-- A stand-in comes to the same as the observer. -/
theorem run_standIn (observers : List (Observer I)) (answer : Answering I σ)
    (place : Fin observers.length) (seen : Observation) (s : σ) :
    ((standIn place).apply seen).run (answerCall observers answer) s =
      ((observers.get place).apply seen).run answer s := by
  show (Program.ofExcept (answerCall observers answer (place, seen) s).1).run
    (answerCall observers answer) (answerCall observers answer (place, seen) s).2 = _
  rw [answerCall]
  cases ((observers.get place).apply seen).run answer s with
  | mk r s' => cases r <;> rfl

/-- Stand-ins for some of the observers come to the same as these. -/
theorem run_applyAll_standIn (observers : List (Observer I)) (answer : Answering I σ)
    (seen : Observation) (places : List (Fin observers.length)) (s : σ) :
    (applyAll (places.map standIn) seen).run (answerCall observers answer) s =
      (applyAll (places.map observers.get) seen).run answer s := by
  induction places generalizing s with
  | nil => rfl
  | cons place places ih =>
    have hfirst : (passOver ((standIn place).apply seen)).run (answerCall observers answer) s =
        (passOver ((observers.get place).apply seen)).run answer s := by
      unfold passOver
      rw [Program.run_recover, Program.run_recover, run_standIn]
      cases ((observers.get place).apply seen).run answer s with
      | mk r s' =>
        cases r with
        | ok u => rfl
        | error e =>
          show Program.run _ (if e.isStoreFailure then .fail e else .done ()) s' =
            Program.run _ (if e.isStoreFailure then .fail e else .done ()) s'
          split <;> rfl
    simp only [List.map_cons, applyAll]
    rw [Program.run_bind, Program.run_bind, hfirst]
    split
    · exact ih _
    · rfl

/-- Stand-ins for all of them come to the same as the pipeline, over any series of operations. -/
theorem run_applyEach_standIns (observers : List (Observer I)) (answer : Answering I σ)
    (series : List Observation) (s : σ) :
    (applyEach (standIns observers.length) series).run (answerCall observers answer) s =
      (applyEach observers series).run answer s := by
  induction series generalizing s with
  | nil => rfl
  | cons seen rest ih =>
    have hall := run_applyAll_standIn observers answer seen (List.finRange observers.length) s
    rw [List.map_get_finRange] at hall
    simp only [applyEach, Program.run_bind, Program.run_attempt, standIns, hall]
    rw [← standIns, ih]
    split <;> rfl

/-! ## Visits -/

/-- An operation on its way through a pipeline: the calls of observers, and what comes of it. -/
structure Visit (n : Nat) where
  seen : Observation
  calls : List (Call (calling n))
  outcome : Except Error Unit

/-- Whether the outcome of a call is a failure of the store. -/
def isFatal : Except Error Unit → Bool
  | .ok () => false
  | .error e => e.isStoreFailure

/-- The observers at some places are called in this order, each of them once, up to and including
the first one that fails in the store. The outcome is its error, or none if there is no such
failure, whatever else has failed. -/
structure Visit.InOrder (places : List (Fin n)) (visit : Visit n) : Prop where
  order : visit.calls.map (·.request) <+: places.map (·, visit.seen)
  ending :
    (visit.outcome = .ok () ∧ visit.calls.length = places.length ∧
      ∀ call ∈ visit.calls, isFatal call.reply = false) ∨
    ∃ before call e, visit.calls = before ++ [call] ∧
      (∀ call ∈ before, isFatal call.reply = false) ∧
      call.reply = .error e ∧ e.isStoreFailure ∧ visit.outcome = .error e

/-- What a run of a pipeline of stand-ins shows of an operation. -/
def visit (answer : Answering (calling n) σ) (places : List (Fin n)) (seen : Observation) (s : σ) :
    Visit n where
  seen := seen
  calls := (applyAll (places.map standIn) seen).calls answer s
  outcome := ((applyAll (places.map standIn) seen).run answer s).1

/-- The first observer is called in any case, and the others unless its outcome is fatal. -/
theorem applyAll_standIn_cons (place : Fin n) (places : List (Fin n)) (seen : Observation) :
    applyAll ((place :: places).map standIn) seen =
      .ask ((place, seen) : (calling n).Request) fun reply =>
        if isFatal reply then Program.ofExcept reply else applyAll (places.map standIn) seen := by
  refine congrArg (Program.ask _) (funext fun reply => ?_)
  cases reply with
  | ok u => rfl
  | error e =>
    show Program.bind (if e.isStoreFailure then .fail e else .done ()) _ =
      if e.isStoreFailure then .fail e else applyAll (places.map standIn) seen
    split <;> rfl

theorem visit_inOrder (answer : Answering (calling n) σ) (places : List (Fin n))
    (seen : Observation) (s : σ) : (visit answer places seen s).InOrder places := by
  induction places generalizing s with
  | nil => exact ⟨List.prefix_rfl, .inl ⟨rfl, rfl, List.forall_mem_nil _⟩⟩
  | cons place places ih =>
    unfold visit
    rw [applyAll_standIn_cons]
    simp only [Program.calls, Program.run]
    cases answer ((place, seen) : (calling n).Request) s with
    | mk reply s' =>
    cases hreply : isFatal reply with
    | true =>
      -- the first observer has failed in the store, and is the last one that is called
      cases reply with
      | ok u => cases hreply
      | error e =>
        refine ⟨List.cons_prefix_cons.2 ⟨rfl, List.nil_prefix⟩, .inr ?_⟩
        exact ⟨[], _, e, rfl, List.forall_mem_nil _, rfl, hreply, rfl⟩
    | false =>
      obtain ⟨horder, hending⟩ := ih s'
      refine ⟨List.cons_prefix_cons.2 ⟨rfl, horder⟩, ?_⟩
      rcases hending with ⟨hok, hlength, hcalls⟩ | ⟨before, call, e, hcalls, hbefore, hlast⟩
      · refine .inl ⟨hok, congrArg (· + 1) hlength, ?_⟩
        exact List.forall_mem_cons.2 ⟨hreply, hcalls⟩
      · refine .inr ⟨_ :: before, call, e, congrArg (_ :: ·) hcalls, ?_, hlast⟩
        exact List.forall_mem_cons.2 ⟨hreply, hbefore⟩

/-- What a run of a pipeline of stand-ins shows of a series of operations: each is shown in the
state that the one before it has left. -/
def visits (answer : Answering (calling n) σ) : List Observation → σ → List (Visit n)
  | [], _ => []
  | seen :: rest, s =>
    visit answer (List.finRange n) seen s ::
      visits answer rest ((applyAll (standIns n) seen).run answer s).2

theorem visits_inOrder (answer : Answering (calling n) σ) (series : List Observation) (s : σ) :
    ∀ v ∈ visits answer series s, v.InOrder (List.finRange n) := by
  induction series generalizing s with
  | nil => exact List.forall_mem_nil _
  | cons seen rest ih => exact List.forall_mem_cons.2 ⟨visit_inOrder answer _ seen s, ih _⟩

theorem map_seen_visits (answer : Answering (calling n) σ) (series : List Observation) (s : σ) :
    (visits answer series s).map (·.seen) = series := by
  induction series generalizing s with
  | nil => rfl
  | cons seen rest ih => exact congrArg (seen :: ·) (ih _)

/-- A run over a series comes to the outcomes of the visits, with their calls. -/
theorem applyEach_eq_visits (answer : Answering (calling n) σ) (series : List Observation) (s : σ) :
    ((applyEach (standIns n) series).run answer s).1 =
        .ok ((visits answer series s).map (·.outcome)) ∧
      (applyEach (standIns n) series).calls answer s =
        (visits answer series s).flatMap (·.calls) := by
  induction series generalizing s with
  | nil => exact ⟨rfl, rfl⟩
  | cons seen rest ih =>
    obtain ⟨houtcomes, hcalls⟩ := ih ((applyAll (standIns n) seen).run answer s).2
    have hfirst := Program.run_attempt answer (applyAll (standIns n) seen) s
    cases hrest : (applyEach (standIns n) rest).run answer
        ((applyAll (standIns n) seen).run answer s).2 with
    | mk r s' =>
    rw [hrest] at houtcomes
    cases houtcomes
    constructor
    · simp only [applyEach, Program.run_bind, hfirst, hrest]
      rfl
    · simp only [applyEach, Program.calls_bind, Program.calls_attempt, hfirst, hrest, hcalls]
      exact congrArg (_ ++ ·) (List.append_nil _)

/-- Observers may remember whatever they like, and their calls may come to whatever they like. For
each operation of a series they are called in their order, each of them once, up to and including
the first one that fails in the store, and the outcome is that failure, or none. Every operation is
shown to the observers from the first one on, whatever has become of the operations before it. This
is how all pipelines run, if their observers are called through stand-ins. -/
theorem observers_called_in_order :
    (∀ (n : Nat) (σ : Type) (answer : Answering (calling n) σ) (series : List Observation) (s : σ),
      ∃ visits : List (Visit n),
        visits.map (·.seen) = series ∧
        (applyEach (standIns n) series).calls answer s = visits.flatMap (·.calls) ∧
        ((applyEach (standIns n) series).run answer s).1 = .ok (visits.map (·.outcome)) ∧
        ∀ visit ∈ visits, visit.InOrder (List.finRange n)) ∧
      ∀ (I : Interface) (σ : Type) (observers : List (Observer I)) (answer : Answering I σ)
        (series : List Observation) (s : σ),
        (applyEach observers series).run answer s =
          (applyEach (standIns observers.length) series).run (answerCall observers answer) s := by
  constructor
  · intro n σ answer series s
    obtain ⟨houtcomes, hcalls⟩ := applyEach_eq_visits answer series s
    exact ⟨visits answer series s, map_seen_visits answer series s, hcalls, houtcomes,
      visits_inOrder answer series s⟩
  · intro I σ observers answer series s
    exact (run_applyEach_standIns observers answer series s).symm

/-- Of three observers the second one fails in the store, if one call came before. -/
def failsOnce : Answering (calling 3) Nat
  | (place, _), calls =>
    (if place = 1 ∧ calls = 1 then .error (.store "full") else .ok (), calls + 1)

/-- The third observer does not see the first operation, and the second operation is seen by all. -/
example (seen : Observation) :
    ((applyEach (standIns 3) [seen, seen]).calls failsOnce 0).map (·.request.1) =
      [0, 1, 0, 1, 2] := rfl

end ChainIndex.Observer
