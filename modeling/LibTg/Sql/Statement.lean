import LibTg.Sql.Lexer
import Mathlib.Logic.Function.Basic

/-!
# Statements of SQL

The statements that the program writes, as syntax, and what they do to the tables of a database. Rows
are functions from the names of columns to values; a name that no statement has set stands for `NULL`.
`exec` runs the statements of a text in their order and stops at the first one that fails. A text that
is none of the statements below counts as an error of syntax.
-/

namespace LibTg.Sql

abbrev Name := List Char

/-- A value that a column holds. -/
inductive Value
  | null
  | int (value : Int64)
  | text (value : List Char)
  | blob (value : List UInt8)
  deriving DecidableEq, Repr

/-- What a column makes of the values that are stored in it. -/
inductive Affinity
  | integer
  | text
  | blob
  deriving DecidableEq, Repr

/-- The integer that a text spells. -/
def textInt (text : List Char) : Option Int64 :=
  match scanInt text with
  | some (value, []) =>
    if -2 ^ 63 ≤ value ∧ value < 2 ^ 63 then some (Int64.ofInt value) else none
  | _ => none

/-- A printed integer is spelled by its text. -/
theorem textInt_printInt (value : Int64) : textInt (printInt value.toInt) = some value := by
  have hrange : -2 ^ 63 ≤ value.toInt ∧ value.toInt < 2 ^ 63 := ⟨value.le_toInt, value.toInt_lt⟩
  rw [textInt, scanInt_printInt]
  simp only [if_pos hrange, Int64.ofInt_toInt]

def Affinity.store : Affinity → Value → Value
  | .integer, .text spelled => (textInt spelled).elim (.text spelled) .int
  | .text, .int number => .text (printInt number.toInt)
  | _, value => value

/-- A column; no two rows hold the same value in a unique one. -/
structure Column where
  name : Name
  affinity : Affinity
  unique : Bool
  deriving DecidableEq, Repr

abbrev Row := Name → Value

/-- The row without a value. -/
def Row.empty : Row := fun _ ↦ .null

/-- A row with columns set, the last assignment of a column being the one that counts. -/
def Row.assign (row : Row) (sets : List (Name × Value)) : Row :=
  sets.foldl (fun row set ↦ Function.update row set.1 set.2) row

/-- A table. -/
structure Table where
  columns : List Column
  rows : List Row

/-- The tables by their names. -/
abbrev Database := Name → Option Table

/-- The database without a table. -/
def Database.empty : Database := fun _ ↦ none

/-- The column of a name. -/
def findColumn (columns : List Column) (name : Name) : Option Column :=
  columns.find? (·.name = name)

/-- Every unique column holds a value at most once. -/
def Table.Unique (table : Table) : Prop :=
  ∀ column ∈ table.columns, column.unique = true →
    ((table.rows.map (· column.name)).filter (· ≠ .null)).Nodup

instance (table : Table) : Decidable table.Unique :=
  inferInstanceAs (Decidable (∀ column ∈ table.columns, column.unique = true →
    ((table.rows.map (· column.name)).filter (· ≠ .null)).Nodup))

/-! ## Syntax -/

/-- An operand; a parameter is bound before the statement runs. -/
inductive Operand
  | column (name : Name)
  | value (value : Value)
  | parameter
  deriving DecidableEq, Repr

/-- A test for equality. -/
structure Comparison where
  left : Operand
  right : Operand
  deriving DecidableEq, Repr

/-- A statement that changes the database. A condition is the conjunction of its comparisons. -/
inductive Statement
  /-- `CREATE TABLE IF NOT EXISTS table (columns)` -/
  | createTable (table : Name) (columns : List Column)
  /-- `ALTER TABLE table ADD COLUMN column` -/
  | addColumn (table : Name) (column : Column)
  /-- `INSERT INTO table (column) SELECT value WHERE NOT EXISTS (SELECT 1 FROM source WHERE …)` -/
  | insertAbsent (table column : Name) (value : Operand) (source : Name)
      (condition : List Comparison)
  /-- `UPDATE table SET … WHERE …` -/
  | update (table : Name) (sets : List (Name × Operand)) (condition : List Comparison)
  /-- `DELETE FROM table WHERE …` -/
  | delete (table : Name) (condition : List Comparison)
  deriving DecidableEq, Repr

/-- `SELECT columns FROM table WHERE …`, without an order. -/
structure Select where
  columns : List Name
  table : Name
  condition : List Comparison
  deriving DecidableEq, Repr

/-! ## Parser -/

def keyword (text : String) : Token := .word text.toList

def keywords (texts : List String) : List Token := texts.map keyword

/-- Tokens that have to stand here. -/
def skip : List Token → List Token → Option (List Token)
  | [], tokens => some tokens
  | expected :: others, token :: tokens => if token = expected then skip others tokens else none
  | _ :: _, [] => none

/-- A name; a literal in its place is taken for one. -/
def parseName : List Token → Option (Name × List Token)
  | .word text :: rest => some (text, rest)
  | .quoted text :: rest => some (text, rest)
  | _ => none

/-- An operand; a literal in its place is a text. -/
def parseOperand : List Token → Option (Operand × List Token)
  | .word text :: rest => some (.column text, rest)
  | .quoted text :: rest => some (.value (.text text), rest)
  | .int value :: rest => some (.value (.int value), rest)
  | .symbol '(' :: .symbol '?' :: .symbol ')' :: rest => some (.parameter, rest)
  | _ => none

/-- `left = right` -/
def parseComparison (tokens : List Token) : Option (Comparison × List Token) := do
  let (left, tokens) ← parseOperand tokens
  let tokens ← skip [.symbol '='] tokens
  let (right, tokens) ← parseOperand tokens
  return (⟨left, right⟩, tokens)

/-- Comparisons with `AND` between them. -/
def parseConjunction : ℕ → List Token → Option (List Comparison × List Token)
  | 0, _ => none
  | fuel + 1, tokens => do
    let (first, tokens) ← parseComparison tokens
    match skip [keyword "and"] tokens with
    | none => return ([first], tokens)
    | some tokens =>
      let (others, tokens) ← parseConjunction fuel tokens
      return (first :: others, tokens)

/-- `WHERE …`, or nothing. -/
def parseWhere (tokens : List Token) : Option (List Comparison × List Token) :=
  match skip [keyword "where"] tokens with
  | none => some ([], tokens)
  | some tokens => parseConjunction (tokens.length + 1) tokens

def parseSets : ℕ → List Token → Option (List (Name × Operand) × List Token)
  | 0, _ => none
  | fuel + 1, tokens => do
    let (name, tokens) ← parseName tokens
    let tokens ← skip [.symbol '='] tokens
    let (value, tokens) ← parseOperand tokens
    match skip [.symbol ','] tokens with
    | none => return ([(name, value)], tokens)
    | some tokens =>
      let (others, tokens) ← parseSets fuel tokens
      return ((name, value) :: others, tokens)

def parseNames : ℕ → List Token → Option (List Name × List Token)
  | 0, _ => none
  | fuel + 1, tokens => do
    let (name, tokens) ← parseName tokens
    match skip [.symbol ','] tokens with
    | none => return ([name], tokens)
    | some tokens =>
      let (others, tokens) ← parseNames fuel tokens
      return (name :: others, tokens)

/-- The affinity of a declared type. -/
def parseType : List Token → Option (Affinity × List Token)
  | .word text :: rest =>
    if text = "int".toList then some (.integer, rest)
    else if text = "text".toList then some (.text, rest)
    else if text = "blob".toList then some (.blob, rest)
    else none
  | _ => none

/-- `name type`, with `UNIQUE` or without. -/
def parseColumn (tokens : List Token) : Option (Column × List Token) := do
  let (name, tokens) ← parseName tokens
  let (affinity, tokens) ← parseType tokens
  match skip [keyword "unique"] tokens with
  | none => return (⟨name, affinity, false⟩, tokens)
  | some tokens => return (⟨name, affinity, true⟩, tokens)

/-- `name type, …` -/
def parseColumns : ℕ → List Token → Option (List Column × List Token)
  | 0, _ => none
  | fuel + 1, tokens => do
    let (column, tokens) ← parseColumn tokens
    match skip [.symbol ','] tokens with
    | none => return ([column], tokens)
    | some tokens =>
      let (others, tokens) ← parseColumns fuel tokens
      return (column :: others, tokens)

/-- A parsed statement has to end here. -/
def complete {Parsed : Type} : Option (Parsed × List Token) → Option Parsed
  | some (parsed, []) => some parsed
  | _ => none

/-- `CREATE TABLE IF NOT EXISTS` -/
def parseCreate (tokens : List Token) : Option Statement := do
  let (table, tokens) ← parseName tokens
  let tokens ← skip [.symbol '('] tokens
  let (columns, tokens) ← parseColumns (tokens.length + 1) tokens
  complete ((skip [.symbol ')'] tokens).map fun rest ↦ (.createTable table columns, rest))

def parseAlter (tokens : List Token) : Option Statement := do
  let (table, tokens) ← parseName tokens
  let tokens ← skip (keywords ["add", "column"]) tokens
  complete ((parseColumn tokens).map fun found ↦ (.addColumn table found.1, found.2))

def parseInsert (tokens : List Token) : Option Statement := do
  let (table, tokens) ← parseName tokens
  let tokens ← skip [.symbol '('] tokens
  let (column, tokens) ← parseName tokens
  let tokens ← skip [.symbol ')', keyword "select"] tokens
  let (value, tokens) ← parseOperand tokens
  let tokens ← skip (keywords ["where", "not", "exists"] ++ [.symbol '(', keyword "select", .int 1,
    keyword "from"]) tokens
  let (source, tokens) ← parseName tokens
  let (condition, tokens) ← parseWhere tokens
  complete ((skip [.symbol ')'] tokens).map fun rest ↦
    (.insertAbsent table column value source condition, rest))

def parseUpdate (tokens : List Token) : Option Statement := do
  let (table, tokens) ← parseName tokens
  let tokens ← skip [keyword "set"] tokens
  let (sets, tokens) ← parseSets (tokens.length + 1) tokens
  complete ((parseWhere tokens).map fun found ↦ (.update table sets found.1, found.2))

def parseDelete (tokens : List Token) : Option Statement := do
  let (table, tokens) ← parseName tokens
  complete ((parseWhere tokens).map fun found ↦ (.delete table found.1, found.2))

def parseStatement (tokens : List Token) : Option Statement :=
  match skip (keywords ["create", "table", "if", "not", "exists"]) tokens with
  | some rest => parseCreate rest
  | none =>
  match skip (keywords ["alter", "table"]) tokens with
  | some rest => parseAlter rest
  | none =>
  match skip (keywords ["insert", "into"]) tokens with
  | some rest => parseInsert rest
  | none =>
  match skip [keyword "update"] tokens with
  | some rest => parseUpdate rest
  | none =>
  match skip (keywords ["delete", "from"]) tokens with
  | some rest => parseDelete rest
  | none => none

/-- `ORDER BY` a text orders nothing. -/
def skipOrder (tokens : List Token) : List Token :=
  match skip (keywords ["order", "by"]) tokens with
  | some (.quoted _ :: rest) => (skip [keyword "desc"] rest).getD rest
  | _ => tokens

def parseSelect (tokens : List Token) : Option Select := do
  let tokens ← skip [keyword "select"] tokens
  let (columns, tokens) ← parseNames (tokens.length + 1) tokens
  let tokens ← skip [keyword "from"] tokens
  let (table, tokens) ← parseName tokens
  complete ((parseWhere tokens).map fun found ↦ (⟨columns, table, found.1⟩, skipOrder found.2))

/-- The tokens of the statements, which `;` separates. -/
def splitStatements (tokens : List Token) : List (List Token) :=
  (tokens.splitOnP fun token ↦ token = .symbol ';').filter (! ·.isEmpty)

def statements (tokens : List Token) : List (Option Statement) :=
  (splitStatements tokens).map parseStatement

/-! ## Execution -/

def Operand.eval (bound : Value) (row : Row) : Operand → Value
  | .column name => row name
  | .value constant => constant
  | .parameter => bound

def Operand.affinity (columns : List Column) : Operand → Option Affinity
  | .column name => (findColumn columns name).map (·.affinity)
  | _ => none

/-- The column that an operand names exists. -/
def Operand.resolves (columns : List Column) : Operand → Bool
  | .column name => (findColumn columns name).isSome
  | _ => true

/-- The value that takes part in a comparison with an operand of another affinity. -/
def comparand : Option Affinity → Option Affinity → Value → Value
  | some .integer, some .integer, value => value
  | _, some .integer, value => Affinity.integer.store value
  | none, some .text, value => Affinity.text.store value
  | _, _, value => value

/-- The comparison is true of the row. `NULL` equals nothing. -/
def Comparison.holds (columns : List Column) (parameter : Value) (row : Row)
    (comparison : Comparison) : Bool :=
  let left := comparison.left.affinity columns
  let right := comparison.right.affinity columns
  let first := comparand left right (comparison.left.eval parameter row)
  let second := comparand right left (comparison.right.eval parameter row)
  decide (first = second ∧ first ≠ .null)

/-- Every comparison is true of the row. -/
def meets (columns : List Column) (parameter : Value) (condition : List Comparison) (row : Row) :
    Bool :=
  condition.all (·.holds columns parameter row)

/-- The columns of a condition exist. -/
def resolves (columns : List Column) (condition : List Comparison) : Bool :=
  condition.all fun comparison ↦
    comparison.left.resolves columns && comparison.right.resolves columns

def stored (columns : List Column) (name : Name) (value : Value) : Value :=
  ((findColumn columns name).map fun column ↦ column.affinity.store value).getD value

/-- The assignments of an `UPDATE`, which read the row as it was. -/
def assignments (columns : List Column) (parameter : Value) (sets : List (Name × Operand))
    (row : Row) : List (Name × Value) :=
  sets.map fun set ↦ (set.1, stored columns set.1 (set.2.eval parameter row))

/-- The table in place of the one of its name, unless a unique column holds a value twice. -/
def Database.store (database : Database) (name : Name) (table : Table) : Option Database :=
  if table.Unique then some (Function.update database name (some table)) else none

/-- A statement, with a value for its parameter; it may fail. -/
def execute (parameter : Value) (database : Database) : Statement → Option Database
  | .createTable name columns =>
    match database name with
    | some _ => some database
    | none => some (Function.update database name (some ⟨columns, []⟩))
  | .addColumn name column => do
    let table ← database name
    if (findColumn table.columns column.name).isSome then none
    else database.store name { table with columns := table.columns ++ [column] }
  | .insertAbsent name column value source condition => do
    let table ← database name
    let others ← database source
    if (findColumn table.columns column).isSome ∧ value.resolves [] ∧
        resolves others.columns condition then
      if others.rows.any (meets others.columns parameter condition) then some database
      else
        let value := stored table.columns column (value.eval parameter Row.empty)
        database.store name { table with rows := table.rows ++ [Row.empty.assign [(column, value)]] }
    else none
  | .update name sets condition => do
    let table ← database name
    if sets.all (fun set ↦ (findColumn table.columns set.1).isSome &&
        set.2.resolves table.columns) ∧ resolves table.columns condition then
      database.store name { table with
        rows := table.rows.map fun row ↦
          if meets table.columns parameter condition row then
            row.assign (assignments table.columns parameter sets row)
          else row }
    else none
  | .delete name condition => do
    let table ← database name
    if resolves table.columns condition then
      database.store name { table with
        rows := table.rows.filter (! meets table.columns parameter condition ·) }
    else none

/-- Statements one after the other, up to the first that fails. -/
def executeAll : Database → List (Option Statement) → Bool × Database
  | database, [] => (true, database)
  | database, none :: _ => (false, database)
  | database, some statement :: rest =>
    match execute .null database statement with
    | some next => executeAll next rest
    | none => (false, database)

/-- `sqlite3_exec`. -/
def exec (database : Database) (text : List Char) : Bool × Database :=
  executeAll database (statements (lex text))

/-- `sqlite3_prepare_v2`, a value bound to the parameter, and `sqlite3_step`: the first statement of
the text. -/
def bindStep (database : Database) (text : List Char) (parameter : Value) : Database :=
  match statements (lex text) with
  | some statement :: _ => (execute parameter database statement).getD database
  | _ => database

/-- The rows of a prepared `SELECT`. -/
def selectRows (database : Database) (query : Select) : Option (List (List Value)) := do
  let table ← database query.table
  if query.columns.all (fun name ↦ (findColumn table.columns name).isSome) ∧
      resolves table.columns query.condition then
    some ((table.rows.filter (meets table.columns .null query.condition)).map fun row ↦
      query.columns.map row)
  else none

/-- The rows that the first statement of a text reads, if it can be prepared. -/
def query (database : Database) (text : List Char) : Option (List (List Value)) :=
  match splitStatements (lex text) with
  | tokens :: _ => (parseSelect tokens).bind (selectRows database)
  | [] => none

/-! ## Columns of a result -/

/-- `sqlite3_column_int64`. -/
def columnInt64 : Value → Int64
  | .null => 0
  | .int value => value
  | .text text => (scanInt text).elim 0 fun found ↦
      Int64.ofInt (max (-2 ^ 63) (min (2 ^ 63 - 1) found.1))
  | .blob bytes => (scanInt (bytes.map fun byte ↦ Char.ofNat byte.toNat)).elim 0 fun found ↦
      Int64.ofInt (max (-2 ^ 63) (min (2 ^ 63 - 1) found.1))

/-- `sqlite3_column_text`, a null pointer for `NULL`. -/
def columnText : Value → Option (List Char)
  | .null => none
  | .int value => some (printInt value.toInt)
  | .text text => some text
  | .blob bytes => some (bytes.map fun byte ↦ Char.ofNat byte.toNat)

/-- `sqlite3_column_blob`, with `sqlite3_column_bytes` bytes. -/
def columnBlob : Value → List UInt8
  | .blob bytes => bytes
  | value => ((columnText value).getD []).map fun c ↦ UInt8.ofNat c.toNat

end LibTg.Sql
