import ChainIndex.Json.Document

/-!
# Records in JSON

A record is written as an object, or as a list of its fields in their declared order. `fields?`
gives each field its document, `allFields?` asks a list for all of them; readers for the types of
fields stand beside it. A name of the record that is repeated, or a list with more items than the
record has fields, makes the record unreadable, while other names are passed over.
-/

namespace ChainIndex.Json

/-- Reads a value of some type from a document. -/
abbrev Reader (α : Type) := Document → Option α

namespace Reader

/-- A string. -/
def text : Reader String
  | .text s => some s
  | _ => none

/-- A truth value. -/
def flag : Reader Bool
  | .bool b => some b
  | _ => none

/-- An integer from `low` to `high`. -/
def integer (low high : Int) : Reader Int
  | .int n => if low ≤ n ∧ n ≤ high then some n else none
  | _ => none

/-- A natural number of at most `high`. -/
def natural (high : Nat) : Reader Nat
  | .int n => if 0 ≤ n ∧ n ≤ high then some n.toNat else none
  | _ => none

/-- A number that fits a word of 64 bits. -/
def word : Reader Nat := natural word64Max

/-- Any value. -/
def value : Reader Json := Document.value?

/-- A list whose items all can be read. -/
def list {α : Type} (item : Reader α) : Reader (List α)
  | .list ds => ds.mapM item
  | _ => none

/-- Nothing for `null`. -/
def optional {α : Type} (reader : Reader α) : Reader (Option α)
  | .null => some none
  | d => (reader d).map some

/-- A fixed value in place of `null`. -/
def orDefault {α : Type} (fallback : α) (reader : Reader α) : Reader α :=
  fun d => (optional reader d).map fun v => v.getD fallback

end Reader

/-- The documents of a record's fields, by name. -/
abbrev Fields := String → Option Document

/-- The fields of the record with the given names. -/
def fields? (names : List String) : Document → Option Fields
  | .object members =>
    -- names that the record does not have may well be repeated
    if names.any fun name => 1 < members.countP fun member => member.1 == name then none
    else some fun name => members.lookup name
  | .list items =>
    if items.length ≤ names.length then some fun name => (names.zip items).lookup name else none
  | _ => none

/-- The fields of a record without defaults. An object may leave out those that are optional, while
a list has to hold all of them. -/
def allFields? (names : List String) : Document → Option Fields
  | .list items => if items.length = names.length then fields? names (.list items) else none
  | d => fields? names d

namespace Fields

/-- A field that may be left out. -/
def get {α : Type} (fields : Fields) (name : String) (reader : Reader α) (fallback : α) :
    Option α :=
  match fields name with
  | none => some fallback
  | some d => reader d

/-- A field that must be there. -/
def need {α : Type} (fields : Fields) (name : String) (reader : Reader α) : Option α :=
  (fields name).bind reader

end Fields

/-- The value of a natural number. -/
def ofNat (n : Nat) : Json := .int n

/-- The value of a list of strings. -/
def ofTexts (ss : List String) : Json := .arr (ss.map .str)

/-- The value of a number or string that may be missing. -/
def ofOption {α : Type} (value : α → Json) : Option α → Json
  | none => .null
  | some a => value a

end ChainIndex.Json
