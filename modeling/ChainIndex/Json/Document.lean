import ChainIndex.Json.Token

/-!
# JSON documents

A document is a JSON text read but not yet interpreted: its objects keep their members in the
order written, repeated names included, and a piece without a value stands as `unreadable`.
`Document.read` takes a text to its document, `Document.value?` a document to its value, and
`Json.document` is the document that writes a value down.
-/

namespace ChainIndex.Json

/-- A JSON text as it is written. -/
inductive Document where
  | null
  | bool (b : Bool)
  | int (n : Int)
  | float (x : Double)
  | text (s : String)
  | list (items : List Document)
  | object (members : List (String × Document))
  /-- A number too large for a double, or a string or name with half of a surrogate pair. -/
  | unreadable
deriving Repr, Inhabited

/-! ## From tokens to documents -/

/-- A list or object that is not closed yet, its parts in reverse. -/
inductive Frame where
  | list (done : List Document)
  | object (done : List (Option String × Document))
  /-- An object whose next member has this name. -/
  | member (done : List (Option String × Document)) (name : Option String)
deriving Repr

/-- What has to come next. -/
inductive Expect where
  | value
  | valueOrClose
  | name
  | nameOrClose
  | colon (name : Option String)
  | commaOrClose
  | ended (d : Document)
deriving Repr

/-- How deeply lists and objects may be nested. -/
def maxDepth : Nat := 127

/-- The open lists and objects, innermost first, and what has to come next. -/
structure Reading where
  frames : List Frame
  expect : Expect
deriving Repr

/-- An object whose names all have a value. -/
def closeMembers (done : List (Option String × Document)) : Document :=
  match done.reverse.mapM fun member => member.1.map (·, member.2) with
  | some members => .object members
  | none => .unreadable

/-- A document is complete. -/
def Reading.complete (d : Document) : List Frame → Option Reading
  | [] => some ⟨[], .ended d⟩
  | .list done :: frames => some ⟨.list (d :: done) :: frames, .commaOrClose⟩
  | .member done name :: frames => some ⟨.object ((name, d) :: done) :: frames, .commaOrClose⟩
  | .object _ :: _ => none

/-- A list or object is opened, unless it lies too deep. -/
def Reading.push (frame : Frame) (expect : Expect) (frames : List Frame) : Option Reading :=
  if frames.length < maxDepth then some ⟨frame :: frames, expect⟩ else none

/-- A token where a document has to start. -/
def Reading.begin (frames : List Frame) : Token → Option Reading
  | .openList => Reading.push (.list []) .valueOrClose frames
  | .openObject => Reading.push (.object []) .nameOrClose frames
  | .null => Reading.complete .null frames
  | .bool b => Reading.complete (.bool b) frames
  | .int n => Reading.complete (.int n) frames
  | .float x => Reading.complete (.float x) frames
  | .immense => Reading.complete .unreadable frames
  | .text (some s) => Reading.complete (.text s) frames
  | .text none => Reading.complete .unreadable frames
  | _ => none

/-- The innermost list or object is closed by its bracket. -/
def Reading.close (frames : List Frame) : Token → Option Reading
  | .closeList =>
    match frames with
    | .list done :: outer => Reading.complete (.list done.reverse) outer
    | _ => none
  | .closeObject =>
    match frames with
    | .object done :: outer => Reading.complete (closeMembers done) outer
    | _ => none
  | _ => none

/-- One token is taken. -/
def Reading.step (reading : Reading) (token : Token) : Option Reading :=
  match reading.expect, token with
  | .value, t => Reading.begin reading.frames t
  | .valueOrClose, .closeList => Reading.close reading.frames .closeList
  | .valueOrClose, t => Reading.begin reading.frames t
  | .name, .text s => some ⟨reading.frames, .colon s⟩
  | .nameOrClose, .text s => some ⟨reading.frames, .colon s⟩
  | .nameOrClose, .closeObject => Reading.close reading.frames .closeObject
  | .colon s, .colon =>
    match reading.frames with
    | .object done :: outer => some ⟨.member done s :: outer, .value⟩
    | _ => none
  | .commaOrClose, .comma =>
    match reading.frames with
    | .list done :: outer => some ⟨.list done :: outer, .value⟩
    | .object done :: outer => some ⟨.object done :: outer, .name⟩
    | _ => none
  | .commaOrClose, t => Reading.close reading.frames t
  | _, _ => none

/-- Tokens are taken one after another. -/
def Reading.run (reading : Reading) : List Token → Option Reading
  | [] => some reading
  | t :: ts => (reading.step t).bind fun next => next.run ts

/-- The document that all tokens together make up. -/
def Document.ofTokens (ts : List Token) : Option Document :=
  -- a text that ends too early, or goes on after its document, is no document
  match Reading.run ⟨[], .value⟩ ts with
  | some ⟨[], .ended d⟩ => some d
  | _ => none

/-- The document of a text, or nothing if the text is no JSON or nested too deeply. The limit counts
everywhere in the text, also in the members of an object that nobody asks for, which a reader that
skips them may take at any depth. -/
def Document.read (s : String) : Option Document :=
  (tokens s).bind Document.ofTokens

/-! ## Documents and values -/

mutual

/-- The value of a document, its objects in key order with the last value of each key. -/
def Document.value? : Document → Option Json
  | .null => some .null
  | .bool b => some (.bool b)
  | .int n => some (.int n)
  | .float x => some (.float x)
  | .text s => some (.str s)
  | .list items => (Document.values? items).map .arr
  | .object members => (Document.memberValues? members).map fun ms => .obj (Members.ofList ms)
  | .unreadable => none

/-- The values of the items of a list. -/
def Document.values? : List Document → Option (List Json)
  | [] => some []
  | d :: ds => do
    let v ← d.value?
    let vs ← Document.values? ds
    some (v :: vs)

/-- The values of the members of an object, in the order written. -/
def Document.memberValues? : List (String × Document) → Option (List (String × Json))
  | [] => some []
  | (name, d) :: rest => do
    let v ← d.value?
    let vs ← Document.memberValues? rest
    some ((name, v) :: vs)

end

mutual

/-- The document that writes a value. -/
def document : Json → Document
  | .null => .null
  | .bool b => .bool b
  | .int n => .int n
  | .float x => .float x
  | .str s => .text s
  | .arr items => .list (itemDocuments items)
  | .obj members => .object (memberDocuments members)

/-- The documents of the items of an array. -/
def itemDocuments : List Json → List Document
  | [] => []
  | v :: vs => v.document :: itemDocuments vs

/-- The documents of the members of an object. -/
def memberDocuments : List (String × Json) → List (String × Document)
  | [] => []
  | (name, v) :: rest => (name, v.document) :: memberDocuments rest

end

/-- The value of a text, or nothing if the text is no JSON or has no value. -/
def read (s : String) : Option Json :=
  (Document.read s).bind Document.value?

end ChainIndex.Json
