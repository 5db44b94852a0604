import ChainIndex.Proofs.Calls
import ChainIndex.Proofs.Numerals
import ChainIndex.Store.Database

/-!
# The tokens of a statement

A database cuts a statement into tokens: words and numbers, parameters, names and texts between
quotes, and single characters for everything else. Between quotes a quote that is doubled stands for
one, and one that is not ends the token. So a name of the chain, whatever it is, comes out of its
quotes as the one token of that name, and the statements that name tables and columns of the chain
consist of the tokens that they are meant to. The reader knows no comments and no texts between
dollars, which none of these statements has outside of quotes.
-/

namespace ChainIndex.Database

/-! ## Tokens -/

/-- A token of a statement. -/
inductive Token where
  /-- A word, or a number. -/
  | word (text : String)
  | parameter (number : Nat)
  /-- A name between double quotes. -/
  | identifier (name : String)
  /-- A text between single quotes. -/
  | literal (text : String)
  | symbol (c : Char)
  /-- A quote that nothing ends. -/
  | unended
deriving DecidableEq, Repr

/-- Where a reader is, with the characters of the token that it has read, the last one first. -/
inductive Reading where
  | between
  | word (done : List Char)
  | parameter (done : List Char)
  | quoted (mark : Char) (done : List Char)
  /-- After a quote, which ends the token unless another follows. -/
  | closing (mark : Char) (done : List Char)
deriving DecidableEq, Repr

namespace Reading

/-- A character of words. -/
def isWordChar (c : Char) : Bool := c.isAlphanum || c == '_' || c == '$' || 0x80 ≤ c.toNat

/-- A character that stands for nothing. -/
def isSpace (c : Char) : Bool := c == ' ' || (9 ≤ c.toNat && c.toNat ≤ 13)

/-- The token that has been read where nothing more belongs to it. -/
def close : Reading → List Token
  | .between => []
  | .word done => [.word (String.ofList done.reverse)]
  | .parameter done => [.parameter (Nat.ofDigitChars 10 done.reverse 0)]
  | .quoted _ _ => [.unended]
  | .closing mark done =>
    [if mark = '"' then .identifier (String.ofList done.reverse)
      else .literal (String.ofList done.reverse)]

/-- A character between tokens. -/
def start (c : Char) : List Token × Reading :=
  if isSpace c then ([], .between)
  else if c = '"' ∨ c = '\x27' then ([], .quoted c [])
  else if c = '$' then ([], .parameter [])
  else if isWordChar c then ([], .word [c])
  else ([.symbol c], .between)

/-- The tokens that a character completes, and how the reader goes on. -/
def step (reading : Reading) (c : Char) : List Token × Reading :=
  match reading with
  | .quoted mark done =>
    if c = mark then ([], .closing mark done) else ([], .quoted mark (c :: done))
  | .closing mark done =>
    if c = mark then ([], .quoted mark (c :: done))
    else (reading.close ++ (start c).1, (start c).2)
  | .word done =>
    if isWordChar c then ([], .word (c :: done)) else (reading.close ++ (start c).1, (start c).2)
  | .parameter done =>
    if c.isDigit then ([], .parameter (c :: done)) else (reading.close ++ (start c).1, (start c).2)
  | .between => start c

/-- The tokens of some characters. -/
def tokens : Reading → List Char → List Token
  | reading, [] => reading.close
  | reading, c :: cs => (reading.step c).1 ++ tokens (reading.step c).2 cs

end Reading

/-- The tokens of a text. -/
def tokens (text : String) : List Token := Reading.between.tokens text.toList

namespace Reading

variable {rest : List Char}

/-- What ends a token begins another. -/
theorem tokens_of_ends {reading : Reading}
    (h : ∀ c ∈ rest.head?, reading.step c = (reading.close ++ (start c).1, (start c).2)) :
    reading.tokens rest = reading.close ++ between.tokens rest := by
  cases rest with
  | nil => exact (List.append_nil _).symm
  | cons c rest =>
    rw [tokens, h c rfl, List.append_assoc]
    rfl

/-! ## Names -/

/-- Between quotes, a quote that is doubled stands for one. -/
theorem tokens_quoted (name done : List Char) (h : rest.head? ≠ some '"') :
    (quoted '"' done).tokens
        (name.flatMap (fun c => if c = '"' then ['"', '"'] else [c]) ++ '"' :: rest) =
      .identifier (String.ofList (done.reverse ++ name)) :: between.tokens rest := by
  induction name generalizing done with
  | nil =>
    have hends : ∀ c ∈ rest.head?, (closing '"' done).step c =
        ((closing '"' done).close ++ (start c).1, (start c).2) := by
      intro c hc
      have hquote : c ≠ '"' := fun heq => h (heq ▸ hc)
      rw [step, if_neg hquote]
    rw [List.append_nil]
    exact tokens_of_ends hends
  | cons c name ih =>
    have hrest := ih (c :: done)
    rw [List.reverse_cons, List.append_assoc] at hrest
    rw [List.flatMap_cons, List.append_assoc]
    by_cases hquote : c = '"'
    · -- the first of the two seems to end the token, and the second takes that back
      subst hquote
      exact hrest
    · rw [if_neg hquote]
      show ((quoted '"' done).step c).1 ++ ((quoted '"' done).step c).2.tokens _ = _
      rw [step, if_neg hquote]
      exact hrest

/-- A quoted name is one token, unless another quote follows. -/
theorem tokens_quoteIdentifier (name : String) (h : rest.head? ≠ some '"') :
    between.tokens ((quoteIdentifier name).toList ++ rest) =
      .identifier name :: between.tokens rest := by
  have hquoted := tokens_quoted name.toList [] h
  rw [List.reverse_nil, List.nil_append, String.ofList_toList] at hquoted
  rw [quoteIdentifier, String.toList_ofList, List.cons_append, List.cons_append, List.append_assoc]
  exact hquoted

/-! ## Parameters -/

/-- The digits of a parameter end where no digit follows. -/
theorem tokens_parameter {ds : List Char} (hds : AllDigits ds) (done : List Char)
    (h : ∀ c ∈ rest.head?, c.isDigit = false) :
    (parameter done).tokens (ds ++ rest) =
      .parameter (Nat.ofDigitChars 10 (done.reverse ++ ds) 0) :: between.tokens rest := by
  induction ds generalizing done with
  | nil =>
    rw [List.append_nil]
    refine tokens_of_ends fun c hc => ?_
    rw [step, if_neg (by simp [h c hc])]
  | cons d ds ih =>
    have hrest := ih (List.forall_mem_cons.1 hds).2 (d :: done)
    rw [List.reverse_cons, List.append_assoc] at hrest
    show ((parameter done).step d).1 ++ ((parameter done).step d).2.tokens _ = _
    rw [step, if_pos (hds d List.mem_cons_self)]
    exact hrest

end Reading

open Reading (between)

/-- No two names are the same between quotes. -/
theorem quoteIdentifier_injective : Function.Injective quoteIdentifier := by
  intro name name' h
  have hname : ∀ name, between.tokens ((quoteIdentifier name).toList ++ []) = [.identifier name] :=
    fun name => Reading.tokens_quoteIdentifier name nofun
  have htokens := hname name
  rw [h, hname name'] at htokens
  exact (Token.identifier.inj (List.cons.inj htokens).1).symm

/-! ## Parts of a statement -/

/-- A comma follows, or a bracket, or nothing. -/
def Apart (rest : List Char) : Prop := ∀ c ∈ rest.head?, c = ',' ∨ c = ')'

/-- A part of a statement has these tokens, whatever follows that sets it apart. -/
def Cut (part : String) (ts : List Token) : Prop :=
  ∀ rest, Apart rest →
    between.tokens (part.toList ++ rest) = ts ++ between.tokens rest

/-- The tokens of parts with commas between them. -/
def listed (parts : List (List Token)) : List Token := [.symbol ','].intercalate parts

theorem cut_commas {α : Type} {items : List α} {part : α → String} {ts : α → List Token}
    (h : ∀ a ∈ items, Cut (part a) (ts a)) :
    Cut (commas (items.map part)) (listed (items.map ts)) := by
  intro rest hrest
  induction items with
  | nil => rfl
  | cons a items ih =>
    obtain ⟨ha, hitems⟩ := List.forall_mem_cons.1 h
    cases items with
    | nil =>
      have hone := ha rest hrest
      rwa [List.map_singleton, List.map_singleton, commas, String.intercalate_singleton, listed,
        List.intercalate_singleton]
    | cons b items =>
      -- the comma sets the first part apart from the others
      have hcomma : Apart (", ".toList ++ ((commas ((b :: items).map part)).toList ++ rest)) :=
        fun c hc => .inl (Option.some.inj hc).symm
      have hparts : commas ((a :: b :: items).map part) =
          part a ++ ", " ++ commas ((b :: items).map part) := String.intercalate_cons_cons
      have hlisted : listed ((a :: b :: items).map ts) =
          ts a ++ [.symbol ','] ++ listed ((b :: items).map ts) := List.intercalate_cons_cons
      rw [hparts, hlisted, String.toList_append, String.toList_append, List.append_assoc,
        List.append_assoc, ha _ hcomma, List.append_assoc, List.append_assoc]
      exact congrArg (ts a ++ .symbol ',' :: ·) (ih hitems)

theorem cut_quoteIdentifier (name : String) : Cut (quoteIdentifier name) [.identifier name] := by
  intro rest hrest
  refine Reading.tokens_quoteIdentifier name fun hquote => ?_
  rcases hrest _ hquote with h | h <;> cases h

theorem cut_parameters (count : Nat) :
    Cut (parameters 0 count) (listed ((List.range count).map fun i => [.parameter (i + 1)])) := by
  refine cut_commas fun i _ rest hrest => ?_
  have hends : ∀ c ∈ rest.head?, c.isDigit = false := by
    intro c hc
    rcases hrest c hc with rfl | rfl <;> rfl
  have hparameter := Reading.tokens_parameter (allDigits_toDigits (i + 1)) [] hends
  rw [List.reverse_nil, List.nil_append, Nat.ofDigitChars_ten_toDigits] at hparameter
  simp only [String.toList_append, String.toList_ofList, List.append_assoc, Nat.zero_add]
  exact hparameter

/-- A bracket sets the parts before it apart. -/
theorem apart_bracket (rest : List Char) : Apart (')' :: rest) :=
  fun _ hc => .inr (Option.some.inj hc).symm

end ChainIndex.Database

namespace ChainIndex.Store

open Database
open Database.Reading (between tokens_of_ends tokens_quoteIdentifier)

/-! ## Statements about wide tables -/

/-- The declaration of a column. -/
def declaration (c : Column) : String :=
  quoteIdentifier c.name ++ " " ++ c.kind.declaration ++ " NULL"

/-- The tokens of the declaration of a column. -/
def declared (c : Column) : List Token :=
  [.identifier c.name, .word c.kind.declaration, .word "NULL"]

theorem cut_declaration (c : Column) : Cut (declaration c) (declared c) := by
  intro rest hrest
  -- the last word is the one that what follows has to end
  have hnull : (Reading.word "LLUN".toList).tokens rest = .word "NULL" :: between.tokens rest := by
    refine tokens_of_ends fun d hd => ?_
    rcases hrest d hd with rfl | rfl <;> rfl
  have hkind : between.tokens (" ".toList ++ (c.kind.declaration.toList ++
      (" NULL".toList ++ rest))) =
      .word c.kind.declaration :: .word "NULL" :: between.tokens rest := by
    cases c.kind with
    | bigInt => exact congrArg (.word "BIGINT" :: ·) hnull
    | text => exact congrArg (.word "TEXT" :: ·) hnull
  rw [declaration]
  simp only [String.toList_append, List.append_assoc]
  rw [tokens_quoteIdentifier c.name (by simp), hkind]
  rfl

/-- What opens a list of parts. -/
theorem tokens_open (rest : List Char) :
    between.tokens (" (".toList ++ rest) = .symbol '(' :: between.tokens rest := rfl

/-- A list of parts ends with its statement. -/
theorem tokens_parts {parts : String} {ts : List Token} (h : Cut parts ts) :
    between.tokens (parts.toList ++ ")".toList) = ts ++ [.symbol ')'] :=
  h _ (apart_bracket [])

/-- Creating a wide table names the table and its columns, each with its type. -/
def creationTokens (table : String) (columns : List Column) : List Token :=
  [.word "CREATE", .word "TABLE", .word "IF", .word "NOT", .word "EXISTS", .identifier table,
      .symbol '('] ++
    listed (columns.map declared) ++ [.symbol ')']

theorem tokens_tableCreation (table : String) (columns : List Column) :
    tokens (tableCreation table columns).text = creationTokens table columns := by
  have htext : (tableCreation table columns).text =
      "CREATE TABLE IF NOT EXISTS " ++ quoteIdentifier table ++ " (" ++
        commas (columns.map declaration) ++ ")" := rfl
  have hcreate : ∀ rest, between.tokens ("CREATE TABLE IF NOT EXISTS ".toList ++ rest) =
      [.word "CREATE", .word "TABLE", .word "IF", .word "NOT", .word "EXISTS"] ++
        between.tokens rest := fun _ => rfl
  rw [tokens, htext]
  simp only [String.toList_append, List.append_assoc]
  rw [hcreate, tokens_quoteIdentifier table (by simp), tokens_open,
    tokens_parts (cut_commas fun c _ => cut_declaration c)]
  rfl

/-- Creating an index names the index, the table and the columns of the index. -/
def indexTokens (table : String) (index : TableIndex) : List Token :=
  [.word "CREATE", .word "INDEX", .word "IF", .word "NOT", .word "EXISTS",
      .identifier index.name, .word "ON", .identifier table, .symbol '('] ++
    listed (index.columns.map fun column => [.identifier column]) ++ [.symbol ')']

theorem tokens_indexCreation (table : String) (index : TableIndex) :
    tokens (indexCreation table index).text = indexTokens table index := by
  have htext : (indexCreation table index).text =
      "CREATE INDEX IF NOT EXISTS " ++ quoteIdentifier index.name ++ " ON " ++
        quoteIdentifier table ++ " (" ++ commas (index.columns.map quoteIdentifier) ++ ")" := rfl
  have hcreate : ∀ rest, between.tokens ("CREATE INDEX IF NOT EXISTS ".toList ++ rest) =
      [.word "CREATE", .word "INDEX", .word "IF", .word "NOT", .word "EXISTS"] ++
        between.tokens rest := fun _ => rfl
  have hon : ∀ rest, between.tokens (" ON ".toList ++ rest) = .word "ON" :: between.tokens rest :=
    fun _ => rfl
  rw [tokens, htext]
  simp only [String.toList_append, List.append_assoc]
  rw [hcreate, tokens_quoteIdentifier index.name (by simp), hon,
    tokens_quoteIdentifier table (by simp), tokens_open,
    tokens_parts (cut_commas fun column _ => cut_quoteIdentifier column)]
  rfl

/-- Looking for a row names the table. -/
def lookupTokens (table : String) : List Token :=
  [.word "SELECT", .word "EXISTS", .symbol '(', .word "SELECT", .word "1", .word "FROM",
    .identifier table, .word "WHERE", .word "txid", .symbol '=', .parameter 1, .word "AND",
    .word "index_in_tx", .symbol '=', .parameter 2, .symbol ')']

theorem tokens_rowLookup (table transaction : String) (index : Int) :
    tokens (rowLookup table transaction index).text = lookupTokens table := by
  have htext : (rowLookup table transaction index).text =
      "SELECT EXISTS (SELECT 1 FROM " ++ quoteIdentifier table ++
        " WHERE txid = $1 AND index_in_tx = $2)" := rfl
  have hselect : ∀ rest, between.tokens ("SELECT EXISTS (SELECT 1 FROM ".toList ++ rest) =
      [.word "SELECT", .word "EXISTS", .symbol '(', .word "SELECT", .word "1", .word "FROM"] ++
        between.tokens rest := fun _ => rfl
  rw [tokens, htext]
  simp only [String.toList_append, List.append_assoc]
  rw [hselect, tokens_quoteIdentifier table (by simp)]
  rfl

/-- Inserting a row names the table and the columns of the row, and has a parameter for each. -/
def insertionTokens (table : String) (row : Row) : List Token :=
  [.word "INSERT", .word "INTO", .identifier table, .symbol '('] ++
    listed (row.map fun cell => [.identifier cell.1]) ++
    [.symbol ')', .word "VALUES", .symbol '('] ++
    listed ((List.range row.length).map fun i => [.parameter (i + 1)]) ++ [.symbol ')']

theorem tokens_rowInsertion (table : String) (row : Row) :
    tokens (rowInsertion table row).text = insertionTokens table row := by
  have htext : (rowInsertion table row).text =
      "INSERT INTO " ++ quoteIdentifier table ++ " (" ++
        commas (row.map fun cell => quoteIdentifier cell.1) ++ ") VALUES (" ++
        parameters 0 row.length ++ ")" := rfl
  have hinsert : ∀ rest, between.tokens ("INSERT INTO ".toList ++ rest) =
      [.word "INSERT", .word "INTO"] ++ between.tokens rest := fun _ => rfl
  have hnames := cut_commas fun (cell : String × Cell) (_ : cell ∈ row) =>
    cut_quoteIdentifier cell.1
  -- the bracket that closes the names sets them apart
  have hapart : ∀ rest, Apart (") VALUES (".toList ++ rest) := fun _ => apart_bracket _
  have hvalues : ∀ rest, between.tokens (") VALUES (".toList ++ rest) =
      [.symbol ')', .word "VALUES", .symbol '('] ++ between.tokens rest := fun _ => rfl
  rw [tokens, htext, insertionTokens]
  simp only [String.toList_append, List.append_assoc]
  rw [hinsert, tokens_quoteIdentifier table (by simp), tokens_open, hnames _ (hapart _),
    hvalues, tokens_parts (cut_parameters row.length)]
  rfl

/-! ## What a database is asked -/

section

variable {σ α β : Type}

/-- The statements of a query in their order. -/
def asked (answer : Program.Answering Database.interface σ) (query : Query α) (s : σ) :
    List Statement :=
  (query.calls answer s).map Program.Call.request

variable {answer : Program.Answering Database.interface σ} {s : σ}

theorem asked_bind (query : Query α) (next : α → Query β) :
    asked answer (query.bind next) s =
      asked answer query s ++
        match query.run answer s with
        | (.ok a, s) => asked answer (next a) s
        | (.error _, _) => [] := by
  have hcalls : ((query.bind next).calls answer s).map Program.Call.request = _ :=
    congrArg (List.map Program.Call.request) (Program.calls_bind query next s)
  rw [List.map_append] at hcalls
  refine hcalls.trans (congrArg (asked answer query s ++ ·) ?_)
  cases query.run answer s with
  | mk result s' => cases result <;> rfl

theorem asked_rows (statement : Statement) : asked answer (rows statement) s = [statement] := by
  refine congrArg (statement :: ·) ?_
  cases (answer statement s).1 <;> rfl

/-- A statement whose rows are only looked at is the only one. -/
theorem asked_rows_bind {read : List (List Value) → Query α}
    (hread : ∀ found s, asked answer (read found) s = []) (statement : Statement) :
    asked answer ((rows statement).bind read) s = [statement] := by
  rw [asked_bind, asked_rows]
  cases (rows statement).run answer s with
  | mk result s' =>
    cases result with
    | ok found => exact congrArg ([statement] ++ ·) (hread found s')
    | error e => rfl

theorem asked_execute (statement : Statement) :
    asked answer (execute statement) s = [statement] :=
  asked_rows_bind (fun _ _ => rfl) statement

theorem asked_hasRow (table transaction : String) (index : Int) :
    asked answer (ofDatabase (.hasRow table transaction index)) s =
      [rowLookup table transaction index] := by
  refine asked_rows_bind (fun found s => ?_) _
  split <;> rfl

theorem asked_addRow {row : Row} (h : row ≠ []) (table : String) :
    asked answer (ofDatabase (.addRow table row)) s = [rowInsertion table row] := by
  cases row with
  | nil => exact absurd rfl h
  | cons cell row => exact asked_execute _

/-- A statement that is executed goes by the reply to it. -/
theorem run_execute (statement : Statement) :
    (execute statement).run answer s =
      (Except.map (fun _ => ()) (Except.mapError refusal (answer statement s).1),
        (answer statement s).2) := by
  obtain ⟨next, hnext, hok, herror⟩ : ∃ next : Except String (List (List Value)) → Query Unit,
      execute statement = .ask (statement : Database.interface.Request) next ∧
        (∀ found, next (.ok found) = .done ()) ∧
        ∀ message, next (.error message) = .fail (refusal message) :=
    ⟨_, rfl, fun _ => rfl, fun _ => rfl⟩
  rw [hnext]
  show Program.run answer (next (answer statement s).1) (answer statement s).2 = _
  cases (answer statement s).1 with
  | ok found =>
    rw [hok]
    rfl
  | error message =>
    rw [herror]
    rfl

/-- Once the table is created, its index is. -/
theorem asked_addTable_of_ok {table : String} {columns : List Column} {found : List (List Value)}
    (h : (answer (tableCreation table columns) s).1 = Except.ok found) (index : TableIndex) :
    asked answer (ofDatabase (.addTable table columns index)) s =
      [tableCreation table columns, indexCreation table index] := by
  refine (asked_bind _ _).trans ?_
  rw [asked_execute, run_execute, h]
  exact congrArg ([tableCreation table columns] ++ ·) (asked_execute _)

/-- Where the table is refused, nothing more is asked. -/
theorem asked_addTable_of_error {table : String} {columns : List Column} {message : String}
    (h : (answer (tableCreation table columns) s).1 = Except.error message) (index : TableIndex) :
    asked answer (ofDatabase (.addTable table columns index)) s =
      [tableCreation table columns] := by
  refine (asked_bind _ _).trans ?_
  rw [asked_execute, run_execute, h]
  rfl

end

/-! ## Names of the chain -/

/-- A quoted name is read as the one token of that name, so no two names are written alike, and what
a database is asked about a wide table has the tokens that it is meant to have, whatever the names:
creating a table names it and its columns with their types, and unless that is refused, its index is
created next, with the names of the index, the table and the columns of the index; looking for a row
names the table; inserting a row names the table and the columns of the row, and its parameters,
numbered from one, stand for the cells in their order. -/
theorem names_stay_in_their_quotes {σ : Type} (answer : Program.Answering Database.interface σ)
    (s : σ) :
    (∀ name rest : String, rest.toList.head? ≠ some '"' →
      tokens (quoteIdentifier name ++ rest) = .identifier name :: tokens rest) ∧
    Function.Injective quoteIdentifier ∧
    (∀ (table : String) (columns : List Column) (index : TableIndex),
      (∀ found, (answer (tableCreation table columns) s).1 = Except.ok found →
        (asked answer (ofDatabase (.addTable table columns index)) s).map (tokens ·.text) =
          [creationTokens table columns, indexTokens table index]) ∧
      ∀ message, (answer (tableCreation table columns) s).1 = Except.error message →
        (asked answer (ofDatabase (.addTable table columns index)) s).map (tokens ·.text) =
          [creationTokens table columns]) ∧
    (∀ (table transaction : String) (index : Int), ∃ statement,
      asked answer (ofDatabase (.hasRow table transaction index)) s = [statement] ∧
      tokens statement.text = lookupTokens table ∧
      statement.binds = [.text transaction, .int index]) ∧
    ∀ (table : String) (row : Row), row ≠ [] → ∃ statement,
      asked answer (ofDatabase (.addRow table row)) s = [statement] ∧
      tokens statement.text = insertionTokens table row ∧
      statement.binds.length = row.length ∧
      ∀ i : Nat, statement.binds[i]? = row[i]?.map fun cell => cellValue cell.2 := by
  refine ⟨fun name rest h => ?_, quoteIdentifier_injective, fun table columns index => ?_,
    fun table transaction index => ?_, fun table row hrow => ?_⟩
  · rw [tokens, String.toList_append, tokens_quoteIdentifier name h]
    rfl
  · refine ⟨fun found hreply => ?_, fun message hreply => ?_⟩
    · rw [asked_addTable_of_ok hreply, List.map_cons, List.map_singleton, tokens_tableCreation,
        tokens_indexCreation]
    · rw [asked_addTable_of_error hreply, List.map_singleton, tokens_tableCreation]
  · exact ⟨_, asked_hasRow table transaction index, tokens_rowLookup table transaction index, rfl⟩
  · refine ⟨_, asked_addRow hrow table, tokens_rowInsertion table row, List.length_map _, ?_⟩
    exact fun i => List.getElem?_map

/-- A row whose columns have quotes, brackets and commas in their names. -/
def quotesRow : Row := [("\"\"", .bigInt (some 7)), ("), (", .text none)]

/-- The columns of such a row. -/
def quotesColumns : List Column := quotesRow.map fun cell => ⟨cell.1, cell.2.kind⟩

/-- An index with a quote in its name, on one of these columns. -/
def quotesIndex : TableIndex := ⟨"gift\"_idx", ["\"\""]⟩

theorem names_of_quotes_stay_in_their_quotes :
    tokens (quoteIdentifier "\"; DROP TABLE blocks" ++ " TEXT") =
        [.identifier "\"; DROP TABLE blocks", .word "TEXT"] ∧
      (asked (fun _ s => (.ok [], s)) (ofDatabase (.addTable "gift\"" quotesColumns quotesIndex))
        ()).map (tokens ·.text) =
          [[.word "CREATE", .word "TABLE", .word "IF", .word "NOT", .word "EXISTS",
              .identifier "gift\"", .symbol '(', .identifier "\"\"", .word "BIGINT",
              .word "NULL", .symbol ',', .identifier "), (", .word "TEXT", .word "NULL",
              .symbol ')'],
            [.word "CREATE", .word "INDEX", .word "IF", .word "NOT", .word "EXISTS",
              .identifier "gift\"_idx", .word "ON", .identifier "gift\"", .symbol '(',
              .identifier "\"\"", .symbol ')']] ∧
      (asked (fun _ s => (.error "denied", s))
        (ofDatabase (.addTable "gift\"" quotesColumns quotesIndex)) ()).map (tokens ·.text) =
          [creationTokens "gift\"" quotesColumns] ∧
      ∃ statement,
        asked (fun _ s => (.ok [], s)) (ofDatabase (.addRow "gift\"" quotesRow)) () =
          [statement] ∧
        tokens statement.text =
          [.word "INSERT", .word "INTO", .identifier "gift\"", .symbol '(', .identifier "\"\"",
            .symbol ',', .identifier "), (", .symbol ')', .word "VALUES", .symbol '(',
            .parameter 1, .symbol ',', .parameter 2, .symbol ')'] ∧
        statement.binds = [.int 7, .null] := by
  -- a database that finds nothing, and one that refuses everything
  let answer : Program.Answering Database.interface Unit :=
    fun _ s => ((.ok [] : Except String (List (List Value))), s)
  let refuse : Program.Answering Database.interface Unit :=
    fun _ s => ((.error "denied" : Except String (List (List Value))), s)
  obtain ⟨hname, -, htable, -, hrow⟩ := names_stay_in_their_quotes answer ()
  obtain ⟨-, -, hrefused, -, -⟩ := names_stay_in_their_quotes refuse ()
  have hquote := hname "\"; DROP TABLE blocks" " TEXT" (by decide)
  obtain ⟨statement, hasked, htokens, -, -⟩ := hrow "gift\"" quotesRow (List.cons_ne_nil _ _)
  refine ⟨hquote.trans rfl, ((htable "gift\"" quotesColumns quotesIndex).1 [] rfl).trans rfl,
    (hrefused "gift\"" quotesColumns quotesIndex).2 "denied" rfl, statement, hasked,
    htokens.trans rfl, ?_⟩
  obtain rfl : _ = statement := List.singleton_inj.1 hasked
  rfl

end ChainIndex.Store
