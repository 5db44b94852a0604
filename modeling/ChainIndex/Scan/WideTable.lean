import ChainIndex.Chain.Payload
import ChainIndex.Scan.Procedure
import ChainIndex.Text.Blank
import ChainIndex.Text.Integer

/-!
# Wide tables

Every operation type has a table of its own. The first payload of a type fixes the columns of its
table; later payloads are projected onto them: keys without a column are dropped, columns without
a key stay empty.
-/

namespace ChainIndex.Scan.WideTable

/-! ## Names -/

/-- The ending of most type names, which table names leave out. -/
def typeEnding : List Char := "_operation".toList

/-- A type name without its ending. -/
def base (name : List Char) : List Char :=
  if typeEnding.isSuffixOf name then name.take (name.length - typeEnding.length) else name

/-- A character of a type name as a table name shows it. -/
def tableChar (c : Char) : Char :=
  if c.isAlphanum then c.toLower else '_'

/-- The name of the table of an operation type. -/
def name (typeName : String) : String :=
  "op_" ++ String.ofList ((base typeName.toList).map tableChar)

/-- The columns by which a row is recognised. -/
def placeColumns : List String := ["txid", "index_in_tx"]

/-- The index that every wide table has. -/
def index (table : String) : TableIndex :=
  ⟨table ++ "_idx", placeColumns⟩

/-! ## Columns and cells -/

/-- The kind of column that a value calls for: integers have one of their own. -/
def kindOf (v : Json) : CellKind :=
  if v.isInteger then .bigInt else .text

/-- The columns of the table that a payload founds. -/
def columnsOf (sample : Payload) : List Column :=
  sample.members.map fun (key, value) => ⟨key, kindOf value⟩

/-- The integer that an integer column stores for a value. -/
def integer? : Json → Option Int
  | .int n => (Json.int n).int64?
  | .str s => Text.readBounded int64Min int64Max (Text.trim s)
  | .bool b => some (if b then 1 else 0)
  | _ => none

/-- The text that a text column stores for a value. -/
def text? : Json → Option String
  | .null => none
  | .str s => some s
  | v => some v.text

/-- The cell that a column stores for a value. -/
def cell (kind : CellKind) (value : Json) : Cell :=
  match kind with
  | .bigInt => .bigInt (integer? value)
  | .text => .text (text? value)

/-- The row of a payload: one cell for each column whose key the payload has, in column order. -/
def row (columns : List Column) (p : Payload) : Row :=
  columns.filterMap fun column =>
    (p.get? column.name).map fun value => (column.name, cell column.kind value)

/-! ## Requests -/

/-- The columns of a type's table. The first payload of a type creates the table; the columns are
always those that the store gives, and are remembered. -/
def columns (typeName : String) (sample : Payload) : Procedure (List Column) := do
  let table := name typeName
  match ← cache (.columns table) with
  | some known => pure known
  | none =>
    if ← store (.hasTable table) then pure ()
    else store (.addTable table (columnsOf sample) (index table))
    -- a table that was there may have other columns than this payload calls for
    let found ← store (.columns table)
    cache (.keepColumns table found)
    pure found

/-- Make sure that a type has its table, and give the table's name. -/
def ensure (typeName : String) (sample : Payload) : Procedure String := do
  let _ ← columns typeName sample
  pure (name typeName)

/-- A position as a column of 64 bits holds it. -/
def position (index : Nat) : Int := (index : Int).bmod (word64Max + 1)

/-- Whether a type's table has no row for an operation yet. -/
def lacksRow (typeName transaction : String) (index : Nat) : Procedure Bool := do
  return !(← store (.hasRow (name typeName) transaction (position index)))

/-- Add a payload to its type's table. -/
def addRow (typeName : String) (p : Payload) : Procedure Unit := do
  let known ← columns typeName p
  store (.addRow (name typeName) (row known p))

end ChainIndex.Scan.WideTable
