import LibTg.Sql.Keyed

/-!
# Pages

`SELECT` with ranges, an order and a limit. Rows that the order does not tell apart come as they stand
in the table. A literal in single quotes is a text wherever an operand may stand, so an order by it
tells no rows apart.
-/

namespace LibTg.Sql

/-- An operator of a comparison. -/
inductive Relation
  | equal
  | less
  | greater
  deriving DecidableEq, Repr

/-- A comparison. -/
structure Test where
  left : Operand
  relation : Relation
  right : Operand
  deriving DecidableEq, Repr

/-- `SELECT columns FROM table WHERE … ORDER BY key DESC LIMIT …` -/
structure Page where
  columns : List Name
  table : Name
  tests : List Test
  key : Operand
  limit : Int64
  deriving DecidableEq, Repr

/-! ## Parser -/

/-- An operator. -/
def parseRelation : List Token → Option (Relation × List Token)
  | .symbol '=' :: rest => some (.equal, rest)
  | .symbol '<' :: rest => some (.less, rest)
  | .symbol '>' :: rest => some (.greater, rest)
  | _ => none

/-- Comparisons with `AND` between them. -/
def parseTests : ℕ → List Token → Option (List Test × List Token)
  | 0, _ => none
  | fuel + 1, tokens => do
    let (left, tokens) ← parseOperand tokens
    let (relation, tokens) ← parseRelation tokens
    let (right, tokens) ← parseOperand tokens
    match skip [keyword "and"] tokens with
    | none => return ([⟨left, relation, right⟩], tokens)
    | some tokens =>
      let (others, tokens) ← parseTests fuel tokens
      return (⟨left, relation, right⟩ :: others, tokens)

def parseLimit : List Token → Option (Int64 × List Token)
  | .int value :: rest => some (value, rest)
  | _ => none

/-- `SELECT` of a page. -/
def parsePage (tokens : List Token) : Option Page := do
  let tokens ← skip [keyword "select"] tokens
  let (columns, tokens) ← parseNames (tokens.length + 1) tokens
  let tokens ← skip [keyword "from"] tokens
  let (table, tokens) ← parseName tokens
  let tokens ← skip [keyword "where"] tokens
  let (tests, tokens) ← parseTests (tokens.length + 1) tokens
  let tokens ← skip (keywords ["order", "by"]) tokens
  let (key, tokens) ← parseOperand tokens
  let tokens ← skip (keywords ["desc", "limit"]) tokens
  complete ((parseLimit tokens).map fun found ↦ (⟨columns, table, tests, key, found.1⟩, found.2))

/-! ## Execution -/

/-- The order of values: `NULL`, integers, texts, blobs. -/
def Value.less : Value → Value → Bool
  | .null, .null => false
  | .null, _ => true
  | .int first, .int second => first.toInt < second.toInt
  | .int _, .text _ => true
  | .int _, .blob _ => true
  | .text first, .text second => first < second
  | .text _, .blob _ => true
  | .blob first, .blob second => first < second
  | _, _ => false

/-- The operator is true of two values. -/
def Relation.holds (first second : Value) : Relation → Bool
  | .equal => first = second
  | .less => first.less second
  | .greater => second.less first

/-- The comparison is true of the row. It is true of no `NULL`. -/
def Test.holds (columns : List Column) (row : Row) (test : Test) : Bool :=
  let left := test.left.affinity columns
  let right := test.right.affinity columns
  let first := comparand left right (test.left.eval .null row)
  let second := comparand right left (test.right.eval .null row)
  decide (first ≠ .null ∧ second ≠ .null) && test.relation.holds first second

/-- Every comparison is true of the row. -/
def meetsTests (columns : List Column) (tests : List Test) (row : Row) : Bool :=
  tests.all (·.holds columns row)

/-- The rows in descending order of the key. -/
def sortRows (key : Operand) (rows : List Row) : List Row :=
  rows.mergeSort fun first second ↦ ! (key.eval .null first).less (key.eval .null second)

/-- As many rows as the limit says; a negative one says nothing. -/
def limitRows (limit : Int64) (rows : List Row) : List Row :=
  if limit.toInt < 0 then rows else rows.take limit.toInt.toNat

def Page.rows (page : Page) (table : Table) : List Row :=
  limitRows page.limit (sortRows page.key
    (table.rows.filter (meetsTests table.columns page.tests)))

/-- The rows of a prepared page. -/
def selectPage (database : Database) (page : Page) : Option (List (List Value)) := do
  let table ← database page.table
  if page.columns.all (fun name ↦ (findColumn table.columns name).isSome) ∧
      page.tests.all (fun test ↦ test.left.resolves table.columns &&
        test.right.resolves table.columns) ∧ page.key.resolves table.columns then
    some ((page.rows table).map fun row ↦ page.columns.map row)
  else none

/-- The rows that the first statement of a text reads, if it can be prepared. -/
def queryPage (database : Database) (text : List Char) : Option (List (List Value)) :=
  match splitStatements (lex text) with
  | tokens :: _ => (parsePage tokens).bind (selectPage database)
  | [] => none

/-! ## Laws -/

theorem Value.not_less_self (value : Value) : value.less value = false := by
  cases value with
  | null => rfl
  | int value => exact decide_eq_false (lt_irrefl _)
  | text value => exact decide_eq_false (List.lt_irrefl value)
  | blob value => exact decide_eq_false (List.lt_irrefl value)

/-- An order by a constant leaves the rows as they stand in the table. -/
theorem sortRows_value (value : Value) (rows : List Row) :
    sortRows (.value value) rows = rows := by
  apply List.mergeSort_of_pairwise
  apply List.pairwise_of_forall
  intro first second
  unfold Operand.eval
  rw [Value.not_less_self]
  rfl

theorem mem_of_mem_limitRows {limit : Int64} {rows : List Row} {row : Row}
    (hrow : row ∈ limitRows limit rows) : row ∈ rows := by
  unfold limitRows at hrow
  split at hrow
  · exact hrow
  · exact List.mem_of_mem_take hrow

/-- A column of integers is compared with an integer. -/
theorem Test.holds_int {columns : List Column} {column : Column} {name : Name}
    (hcolumn : findColumn columns name = some column) (haffinity : column.affinity = .integer)
    (relation : Relation) (value : Int64) (row : Row) :
    Test.holds columns row ⟨.column name, relation, .value (.int value)⟩ =
      (decide (row name ≠ .null) && relation.holds (row name) (.int value)) := by
  have hfirst : comparand (some .integer) none (row name) = row name := rfl
  have hsecond : comparand none (some .integer) (.int value) = .int value := rfl
  unfold Test.holds Operand.affinity Operand.eval
  simp only [hcolumn, Option.map_some, haffinity, hfirst, hsecond, ne_eq, reduceCtorEq,
    not_false_eq_true, and_true]

/-- The page of a printed text is that of its format. -/
theorem queryPage_sprintf (characters : List (List Char)) {texts : List String}
    (hliterals : characters.map String.ofList = texts) {args : List Arg} {found : Option Page}
    (database : Database) (hargs : ∀ value, .s value ∈ args → '\'' ∉ value)
    (hread : (readFrom (.lexer .start) (format characters.flatten args)).map (fun tokens ↦
      (splitStatements tokens).head?.bind parsePage) = some found) :
    queryPage database (sprintf texts args) = found.bind (selectPage database) := by
  rw [Option.map_eq_some_iff] at hread
  obtain ⟨tokens, htokens, hfound⟩ := hread
  rw [sprintf, formats_literals characters hliterals, queryPage,
    lex_print (quoteFree_format hargs) htokens, ← hfound]
  cases splitStatements tokens <;> rfl

end LibTg.Sql
