import ChainIndex.Observer.Pipeline

/-!
# Observers that follow a script

A scripted observer does nothing but fail when its script says so, call by call.
-/

namespace ChainIndex.Simulation

/-- An observer with the outcomes of its next calls; after them it succeeds. -/
structure ScriptedObserver where
  name : String
  outcomes : List (Except Error Unit)

/-- What a scripted observer is asked: to look at an operation. -/
structure Look where
  /-- The position of the observer in the pipeline. -/
  observer : Nat
  /-- The position of the operation. -/
  operation : Nat
  /-- Whether there is a receipt of a call that ran through. -/
  succeeded : Bool
deriving DecidableEq, Repr

/-- The side of scripted observers. -/
def lookInterface : Interface where
  Request := Look
  Reply _ := Except Error Unit

/-- The observer at a position. -/
def observerAt (position : Nat) (scripted : ScriptedObserver) : Observer lookInterface where
  name := scripted.name
  apply seen :=
    .ask (⟨position, seen.index, seen.completed.isSome⟩ : Look) Program.ofExcept

/-- The state of scripted observers: what is left of their scripts, and what they have looked at. -/
structure Watch where
  observers : List ScriptedObserver
  looks : List Look := []

/-- Take the next outcome of an observer. -/
def ScriptedObserver.next (o : ScriptedObserver) : Except Error Unit × ScriptedObserver :=
  match o.outcomes with
  | [] => (.ok (), o)
  | outcome :: rest => (outcome, { o with outcomes := rest })

/-- The scripted observers look at an operation. -/
def Watch.answer : Program.Answering lookInterface Watch := fun (look : Look) w =>
  match w.observers[look.observer]? with
  | none => (.ok (), w)
  | some observer =>
    let (outcome, observer) := observer.next
    (outcome, {
      observers := w.observers.set look.observer observer
      looks := w.looks ++ [look] })

/-- Show an operation to a pipeline of scripted observers. -/
def Watch.show (w : Watch) (seen : Observation) : Except Error Unit × Watch :=
  (Observer.applyAll (w.observers.mapIdx observerAt) seen).run Watch.answer w

end ChainIndex.Simulation
