import ChainIndex.Error
import ChainIndex.Json.Record
import ChainIndex.Program
import ChainIndex.Time

/-!
# Statements

A statement is a text with numbered parameters and the values bound to them. Names that come from
the chain stand in double quotes, in which a double quote is written twice; values never stand in
the text. A database answers a statement with rows or with a message that says why it refuses.
-/

namespace ChainIndex.Database

/-! ## Values -/

/-- A value in a row, or one that is bound to a parameter. -/
inductive Value where
  | null
  | bool (b : Bool)
  | int (n : Int)
  | text (s : String)
  /-- A time, in microseconds since the start of the year 2000. -/
  | time (micros : Int)
deriving DecidableEq, Repr

namespace Value

/-- The value as JSON. -/
def json : Value → Json
  | .null => .null
  | .bool b => .bool b
  | .int n => .int n
  | .text s => .str s
  | .time micros => .obj [("micros", .int micros)]

/-- The value that a field of a record binds. -/
def ofJson : Json → Value
  | .bool b => .bool b
  | .int n => .int n
  | .str s => .text s
  | _ => .null

/-- What a field of a record is read from. -/
def document : Value → Json.Document
  | .null => .null
  | .bool b => .bool b
  | .int n => .int n
  | .text s => .text s
  | .time micros => .text (Timestamp.ofMicros micros).text

/-- A number in a column of times is a time. -/
def asTime : Value → Value
  | .int micros => .time micros
  | v => v

end Value

/-! ## Statements -/

/-- A text with the values of its parameters `$1`, `$2`, …. -/
structure Statement where
  text : String
  binds : List Value := []
deriving DecidableEq, Repr

/-- A name between double quotes, which are written twice inside of it. -/
def quoteIdentifier (name : String) : String :=
  let inner := name.toList.flatMap fun c => if c = '"' then ['"', '"'] else [c]
  String.ofList ('"' :: inner ++ ['"'])

/-- Parts with commas between them. -/
def commas (parts : List String) : String := ", ".intercalate parts

/-- So many parameters, numbered on from the one before. -/
def parameters (before count : Nat) : String :=
  commas ((List.range count).map fun i => "$" ++ String.ofList (Nat.toDigits 10 (before + i + 1)))

/-- The rows of a table whose key columns have the values of the first parameters. -/
def selection (columns : List String) (table : String) (key : List String) : String :=
  "SELECT " ++ commas columns ++ " FROM " ++ table ++ " WHERE " ++
    " AND ".intercalate (key.mapIdx fun i column => column ++ " = " ++ parameters i 1)

/-- Insert one row with the given columns, which are all bound. -/
def insertion (table : String) (columns : List String) (onConflict : String) : String :=
  "INSERT INTO " ++ table ++ " (" ++ commas columns ++ ") VALUES (" ++
    parameters 0 columns.length ++ ") ON CONFLICT " ++ onConflict

/-- Insert the fields of a record. -/
def insertRecord (table : String) (record : Json) (onConflict : String) : Statement :=
  let fields := (record.members?).getD []
  ⟨insertion table (fields.map (·.1)) onConflict, fields.map fun field => Value.ofJson field.2⟩

/-! ## Answers -/

/-- A database, asked statement by statement. -/
def interface : Interface where
  Request := Statement
  Reply _ := Except String (List (List Value))

/-- A program that asks a database. -/
abbrev Query (α : Type) := Program interface Error α

/-- The error for a statement that the database refuses. -/
def refusal (message : String) : Error :=
  .store ("error returned from database: " ++ message)

/-- The error for rows that are not what was asked for. -/
def unexpectedRows : Error := .store elided

/-- The rows of a statement. -/
def rows (statement : Statement) : Query (List (List Value)) :=
  .ask (statement : interface.Request) fun
    | .ok rows => .done rows
    | .error message => .fail (refusal message)

/-- Execute a statement whose rows do not matter. -/
def execute (statement : Statement) : Query Unit := do
  let _ ← rows statement

/-- Read a row, which has to be as it was asked for. -/
def readRow {α : Type} (read : List Value → Option α) (row : List Value) : Query α :=
  match read row with
  | some a => .done a
  | none => .fail unexpectedRows

/-- The first row of a statement, if there is one. -/
def first {α : Type} (read : List Value → Option α) (statement : Statement) : Query (Option α) := do
  match ← rows statement with
  | [] => pure none
  | row :: _ => return some (← readRow read row)

/-- The first row of a statement that always has one. -/
def one {α : Type} (read : List Value → Option α) (statement : Statement) : Query α := do
  match ← first read statement with
  | some a => pure a
  | none => .fail unexpectedRows

/-- All rows of a statement. -/
def all {α : Type} (read : List Value → Option α) (statement : Statement) : Query (List α) := do
  (← rows statement).mapM (readRow read)

/-- The truth value of a statement, which always has a row. -/
def truth (statement : Statement) : Query Bool := do
  match ← rows statement with
  | (.bool b :: _) :: _ => pure b
  | _ => .fail unexpectedRows

/-- Read a record from the values of its columns. -/
def readRecord {α : Type} (columns : List String) (read : Json.Reader α) (row : List Value) :
    Option α :=
  read (.object (columns.zip (row.map Value.document)))

/-- Execute statements together: if one of them is refused, all are undone. -/
def atomically (body : Query Unit) : Query Unit :=
  let whole : Query Unit := do
    execute ⟨"BEGIN", []⟩
    body
    execute ⟨"COMMIT", []⟩
  -- the failure that is reported is that of the statement, whatever undoing it leads to
  whole.recover fun e => (execute ⟨"ROLLBACK", []⟩).attempt.bind fun _ => .fail e

/-! ## Blanks -/

/-- Where a reader of a text is: between tokens, or inside quotes of either kind. -/
inductive Quoting where
  | none
  | single
  | double
deriving DecidableEq, Repr

/-- Where a reader is after a character. -/
def Quoting.after : Quoting → Char → Quoting
  | .none, '\x27' => .single
  | .none, '"' => .double
  | .single, '\x27' => .none
  | .double, '"' => .none
  | q, _ => q

/-- One blank for every run of blanks outside of quotes. `pending` is whether a run has begun. -/
def squeeze : Quoting → (pending : Bool) → List Char → List Char
  | _, _, [] => []
  | q, pending, c :: cs =>
    if q = .none ∧ Text.isBlank c then squeeze q true cs
    else
      let rest := c :: squeeze (q.after c) false cs
      if pending then ' ' :: rest else rest

/-- A text on one line: no blanks at its ends, and single ones between its parts. -/
def oneLine (text : String) : String :=
  String.ofList (squeeze .none false (Text.trimChars text.toList))

end ChainIndex.Database
