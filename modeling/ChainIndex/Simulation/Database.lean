import ChainIndex.Database.Statement

/-!
# A database that follows a script

Rules say how statements are answered; the first one that fits decides. Nothing is stored. Every
statement is kept in a log.
-/

namespace ChainIndex.Simulation

open Database (Statement Value)

/-- How some statements are answered. -/
structure Rule where
  /-- The statement has this part. -/
  part : String
  /-- The statement binds these values. -/
  binds : Option (List Value)
  /-- How often the rule is still used, if that is limited. -/
  uses : Option Nat
  outcome : Except String (List (List Value))

/-- Whether a text has a part. -/
def occursIn (part : List Char) : List Char → Bool
  | [] => part.isEmpty
  | c :: cs => part.isPrefixOf (c :: cs) || occursIn part cs

namespace Rule

/-- Whether a rule fits a statement. -/
def fits (rule : Rule) (statement : Statement) : Bool :=
  occursIn rule.part.toList (Database.oneLine statement.text).toList &&
    rule.binds.all (· == statement.binds) && rule.uses.all (0 < ·)

/-- The rule after one more use. -/
def used (rule : Rule) : Rule := { rule with uses := rule.uses.map (· - 1) }

end Rule

/-- A database with the rules it follows. -/
structure ScriptedDatabase where
  rules : List Rule
  log : List Statement := []

namespace ScriptedDatabase

/-- The rows of a statement for which there is no rule: one that asks whether something exists finds
that it does not. -/
def unruled (statement : Statement) : List (List Value) :=
  if "SELECT EXISTS".isPrefixOf statement.text then [[.bool false]] else []

/-- The outcome by the first rule that fits, and the rules after it. -/
def consult (statement : Statement) :
    List Rule → Except String (List (List Value)) × List Rule
  | [] => (.ok (unruled statement), [])
  | rule :: rest =>
    if rule.fits statement then (rule.outcome, rule.used :: rest)
    else
      let (outcome, rest) := consult statement rest
      (outcome, rule :: rest)

/-- Answer a statement. -/
def answer : Program.Answering Database.interface ScriptedDatabase :=
    fun (statement : Statement) db =>
  let (outcome, rules) := consult statement db.rules
  (outcome, {
    rules
    log := db.log ++ [statement] })

end ScriptedDatabase

end ChainIndex.Simulation
