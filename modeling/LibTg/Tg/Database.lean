import LibTg.Sql.Keyed
import LibTg.Tg.Dialog
import LibTg.Tl.Str

/-!
# The database (`tg/database.c`)

All accounts of a program share one database. Every call of `tg_sqlite3_exec` opens it, runs the
statements of a text and closes it; a call that fails leaves what the statements before the failed one
have done. The tables of chats, channels and users are left out: no function below reads or writes
them.
-/

namespace LibTg.Tg

open Sql

/-- The text that calls of `str_append` and `str_appendf` put together. The formats are short enough
for `str_appendf` to cut nothing. -/
def strPrint (pieces : List Piece) : Option (List Char) :=
  pieces.foldlM (fun text piece ↦ Tl.grown text piece.print) []

theorem strPrint_of_fits {pieces : List Piece} (hfits : (print pieces).length < Tl.strMax) :
    strPrint pieces = some (print pieces) := by
  have hempty : ([] : List Char).length < Tl.strMax := by decide
  rw [strPrint, Tl.foldlM_grown Piece.print pieces hempty, Tl.grown, if_pos (by
    rw [List.length_nil, Nat.zero_add]
    exact hfits)]
  rfl

/-- `tg_sqlite3_exec`: its result and the database after it. -/
def tgSqlite3Exec (database : Database) (sql : List Char) : ℤ × Database :=
  let (ok, database) := exec database sql
  (if ok then 0 else 1, database)

theorem tgSqlite3Exec_of_statement {database : Database} {sql : List Char} {statement : Statement}
    (hstatement : statements (lex sql) = [some statement]) :
    (tgSqlite3Exec database sql).2 = (execute .null database statement).getD database := by
  rw [tgSqlite3Exec]
  exact exec_of_statement hstatement

theorem tgSqlite3Exec_of_statements {database middle next : Database} {sql : List Char}
    {first second : Statement} (hstatements : statements (lex sql) = [some first, some second])
    (hfirst : execute .null database first = some middle)
    (hsecond : execute .null middle second = some next) :
    tgSqlite3Exec database sql = (0, next) := by
  simp only [tgSqlite3Exec, exec, hstatements, executeAll, hfirst, hsecond, if_true]

/-- The rows that `tg_sqlite3_for_each` visits; none if the statement cannot be prepared. -/
def tgSqlite3ForEach (database : Database) (sql : List Char) : List (List Value) :=
  (query database sql).getD []

/-! ## Tables -/

/-- The texts of `tg_messages_create_table`. -/
def messagesTableTexts : List String :=
  ["CREATE TABLE IF NOT EXISTS messages (id INT); ",
    "ALTER TABLE messages ADD COLUMN msg_id_ INT; ",
    "ALTER TABLE messages ADD COLUMN id_peer_id_msg_id_ TEXT; ",
    "ALTER TABLE messages ADD COLUMN message_data BLOB; ",
    "ALTER TABLE messages ADD COLUMN date INT; ",
    "ALTER TABLE messages ADD COLUMN peer_id INT; "]

def tgMessagesCreateTable (database : Database) : Database :=
  (messagesTableTexts.map String.toList).foldl
    (fun database sql ↦ (tgSqlite3Exec database sql).2) database

/-- The texts of `tg_dialogs_create_table`. -/
def dialogsTableTexts : List (List Char) :=
  "CREATE TABLE IF NOT EXISTS dialogs (id INT, peer_id INT UNIQUE);".toList ::
    tgDialogArgs.map fun arg ↦ "ALTER TABLE 'dialogs' ADD COLUMN '".toList ++ arg.column ++
      "' ".toList ++ arg.type ++ ";\n".toList

def tgDialogsCreateTable (database : Database) : Database :=
  dialogsTableTexts.foldl (fun database sql ↦ (tgSqlite3Exec database sql).2) database

/-- The pieces of the text of `database_init`. -/
def databaseInitTexts : List String :=
  ["CREATE TABLE IF NOT EXISTS ips (id INT); ",
    "CREATE TABLE IF NOT EXISTS phone_numbers (id INT); ",
    "CREATE TABLE IF NOT EXISTS auth_tokens (id INT); ",
    "CREATE TABLE IF NOT EXISTS auth_keys (id INT); ",
    "CREATE TABLE IF NOT EXISTS dialogs_hash (id INT); ",
    "CREATE TABLE IF NOT EXISTS messages_hash (id INT); ",
    "CREATE TABLE IF NOT EXISTS photos (id INT); ",
    "CREATE TABLE IF NOT EXISTS peer_photos (id INT); "]

/-- `database_init`, behind its two `PRAGMA` statements. -/
def databaseInit (database : Database) : Database :=
  tgDialogsCreateTable (tgMessagesCreateTable
    (tgSqlite3Exec database (databaseInitTexts.map String.toList).flatten).2)

/-- The column that every table begins with. -/
def idColumn : Column := ⟨"id".toList, .integer, false⟩

def messageColumns : List Column :=
  [idColumn, ⟨"msg_id_".toList, .integer, false⟩, ⟨"id_peer_id_msg_id_".toList, .text, false⟩,
    ⟨"message_data".toList, .blob, false⟩, ⟨"date".toList, .integer, false⟩,
    ⟨"peer_id".toList, .integer, false⟩]

def dialogColumn (arg : DialogArg) : Column :=
  match arg with
  | .arg _ _ _ => ⟨arg.column, .integer, false⟩
  | .str _ _ _ => ⟨arg.column, .text, false⟩

/-- The columns of the table of dialogs. The statement that would add `peer_id` fails. -/
def dialogColumns : List Column :=
  idColumn :: ⟨"peer_id".toList, .integer, true⟩ ::
    (tgDialogArgs.map dialogColumn).filter (·.name ≠ "peer_id".toList)

/-- The tables with a column of their own only once they are written. -/
def accountTables : List Name :=
  ["ips".toList, "phone_numbers".toList, "auth_tokens".toList, "auth_keys".toList,
    "dialogs_hash".toList, "messages_hash".toList, "photos".toList, "peer_photos".toList]

def peerIdColumn : Column := ⟨"peer_id".toList, .integer, false⟩

/-- A comparison with an account. -/
def isAccount (id : Int32) : Comparison := ⟨.column "id".toList, .value (.int id.toInt64)⟩

/-- A comparison with a peer. -/
def isPeer (peerId : UInt64) : Comparison :=
  ⟨.column "peer_id".toList, .value (.int peerId.toInt64)⟩

theorem statements_databaseInitTexts :
    statements (lex (databaseInitTexts.map String.toList).flatten) =
      accountTables.map fun table ↦ some (.createTable table [idColumn]) := by
  have hliterals : databaseInitTexts.map String.toList = _ :=
    map_toList_literals [_, _, _, _, _, _, _, _] rfl
  rw [hliterals]
  decide +kernel

theorem statements_messagesTableTexts :
    (messagesTableTexts.map String.toList).map (fun text ↦ statements (lex text)) =
      [some (.createTable "messages".toList [idColumn])] ::
        messageColumns.tail.map fun column ↦ [some (.addColumn "messages".toList column)] := by
  have hliterals : messagesTableTexts.map String.toList = _ :=
    map_toList_literals [_, _, _, _, _, _] rfl
  rw [hliterals]
  decide +kernel

/-- The columns of the dialogs hold no quote. -/
theorem quote_notMem_column : ∀ arg ∈ tgDialogArgs, '\'' ∉ arg.column := by
  decide +kernel

/-- A text in front of and one behind the name of a column. -/
theorem statements_columnText {front back : List Char} {column : Name} (hcolumn : '\'' ∉ column)
    {found : List (Option Statement)}
    (hread : (readFrom (.lexer .start) (format front [] ++ [.text column] ++ format back [])).map
      statements = some found) :
    statements (lex (front ++ column ++ back)) = found := by
  have hprint : print (format front [] ++ [.text column] ++ format back []) =
      front ++ column ++ back := by
    rw [print_append, print_append, print_format_nil, print_format_nil, print,
      List.flatMap_singleton, Piece.print]
  have hfree (text : List Char) : QuoteFree (format text []) :=
    quoteFree_format fun value h ↦ absurd h List.not_mem_nil
  rw [← hprint]
  exact statements_print (((hfree front).append (.text hcolumn)).append (hfree back)) hread

theorem statements_dialogColumn {arg : DialogArg} (hcolumn : '\'' ∉ arg.column) :
    statements (lex ("ALTER TABLE 'dialogs' ADD COLUMN '".toList ++ arg.column ++ "' ".toList ++
      arg.type ++ ";\n".toList)) = [some (.addColumn "dialogs".toList (dialogColumn arg))] := by
  have hfront : "ALTER TABLE 'dialogs' ADD COLUMN '".toList = _ := String.toList_ofList
  rw [hfront, List.append_assoc _ (DialogArg.type arg), List.append_assoc _ "' ".toList]
  apply statements_columnText hcolumn
  cases arg <;> rfl

theorem statements_dialogsTableTexts :
    dialogsTableTexts.map (fun text ↦ statements (lex text)) =
      [some (.createTable "dialogs".toList [idColumn, ⟨"peer_id".toList, .integer, true⟩])] ::
        (tgDialogArgs.map dialogColumn).map fun column ↦
          [some (.addColumn "dialogs".toList column)] := by
  rw [dialogsTableTexts, List.map_cons, List.map_map, List.map_map]
  apply congrArg₂ List.cons
  · exact statements_literal (by decide +kernel)
  · apply List.map_congr_left
    intro arg harg
    exact statements_dialogColumn (quote_notMem_column arg harg)

/-! ## The database of a new program -/

/-- `CREATE TABLE` of several tables. -/
theorem executeAll_createTable (database : Database) (tables : List Name) (name : Name)
    (columns : List Column) :
    (executeAll database (tables.map fun table ↦ some (.createTable table columns))).2 name =
      if name ∈ tables ∧ database name = none then some ⟨columns, []⟩ else database name := by
  induction tables generalizing database with
  | nil => rfl
  | cons table tables ih =>
    rw [List.map_cons, executeAll]
    cases htable : database table with
    | some found =>
      simp only [execute, htable]
      rw [ih]
      by_cases hname : name = table
      · simp [hname, htable]
      · simp [hname]
    | none =>
      simp only [execute, htable]
      rw [ih]
      by_cases hname : name = table
      · simp [hname, htable]
      · simp [hname]

/-- Texts that add columns to a table without rows. -/
theorem foldl_addColumn {texts : List (List Char)} {columns : List Column} {name : Name}
    (htexts : texts.map (fun text ↦ statements (lex text)) =
      columns.map fun column ↦ [some (.addColumn name column)])
    {database : Database} {present : List Column}
    (hdatabase : database name = some ⟨present, []⟩) :
    texts.foldl (fun database sql ↦ (tgSqlite3Exec database sql).2) database =
      Function.update database name (some ⟨columns.foldl addColumn present, []⟩) := by
  induction texts generalizing columns database present with
  | nil =>
    have hnil : columns = [] := List.map_eq_nil_iff.mp htexts.symm
    rw [hnil, List.foldl_nil, List.foldl_nil, ← hdatabase, Function.update_eq_self]
  | cons text texts ih =>
    cases columns with
    | nil => cases htexts
    | cons column columns =>
      rw [List.map_cons, List.map_cons, List.cons.injEq] at htexts
      have hunique : Table.Unique ⟨addColumn present column, []⟩ := by
        intro other _ _
        exact List.nodup_nil
      have hfirst : (tgSqlite3Exec database text).2 =
          Function.update database name (some ⟨addColumn present column, []⟩) :=
        (tgSqlite3Exec_of_statement htexts.1).trans (getD_execute_addColumn hdatabase .null hunique)
      rw [List.foldl_cons, List.foldl_cons, hfirst, ih htexts.2 (Function.update_self ..),
        Function.update_idem]

/-- A text that creates a table, and texts that add its columns. -/
theorem foldl_createTable {texts : List (List Char)} {name : Name} {present columns : List Column}
    (htexts : texts.map (fun text ↦ statements (lex text)) =
      [some (.createTable name present)] ::
        columns.map fun column ↦ [some (.addColumn name column)])
    {database : Database} (hdatabase : database name = none) :
    texts.foldl (fun database sql ↦ (tgSqlite3Exec database sql).2) database =
      Function.update database name (some ⟨columns.foldl addColumn present, []⟩) := by
  cases texts with
  | nil => cases htexts
  | cons text texts =>
    rw [List.map_cons, List.cons.injEq] at htexts
    have hcreate : (tgSqlite3Exec database text).2 =
        Function.update database name (some ⟨present, []⟩) := by
      calc (tgSqlite3Exec database text).2
          = (execute .null database (.createTable name present)).getD database :=
            tgSqlite3Exec_of_statement htexts.1
        _ = Function.update database name (some ⟨present, []⟩) := by
          simp only [execute, hdatabase, Option.getD_some]
    rw [List.foldl_cons, hcreate, foldl_addColumn htexts.2 (Function.update_self ..),
      Function.update_idem]

/-- The tables that `database_init` itself creates. -/
theorem exec_databaseInitTexts (name : Name) :
    (tgSqlite3Exec Database.empty (databaseInitTexts.map String.toList).flatten).2 name =
      if name ∈ accountTables then some ⟨[idColumn], []⟩ else none := by
  rw [tgSqlite3Exec, exec, statements_databaseInitTexts]
  rw [executeAll_createTable, Database.empty]
  simp only [and_true]

theorem tgMessagesCreateTable_eq {database : Database}
    (hdatabase : database "messages".toList = none) : tgMessagesCreateTable database =
      Function.update database "messages".toList (some ⟨messageColumns, []⟩) := by
  have hcolumns : messageColumns.tail.foldl addColumn [idColumn] = messageColumns := by
    decide +kernel
  rw [tgMessagesCreateTable, foldl_createTable statements_messagesTableTexts hdatabase, hcolumns]

theorem tgDialogsCreateTable_eq {database : Database}
    (hdatabase : database "dialogs".toList = none) : tgDialogsCreateTable database =
      Function.update database "dialogs".toList (some ⟨dialogColumns, []⟩) := by
  have hcolumns : (tgDialogArgs.map dialogColumn).foldl addColumn
      [idColumn, ⟨"peer_id".toList, .integer, true⟩] = dialogColumns := by
    decide +kernel
  rw [tgDialogsCreateTable, foldl_createTable statements_dialogsTableTexts hdatabase, hcolumns]

/-- The tables of a new database. -/
theorem databaseInit_apply (name : Name) : databaseInit Database.empty name =
    if name ∈ accountTables then some ⟨[idColumn], []⟩
    else if name = "messages".toList then some ⟨messageColumns, []⟩
    else if name = "dialogs".toList then some ⟨dialogColumns, []⟩
    else none := by
  have hothers : "messages".toList ∉ accountTables ∧ "dialogs".toList ∉ accountTables ∧
      "dialogs".toList ≠ "messages".toList := by
    decide +kernel
  have hmessages : (tgSqlite3Exec Database.empty
      (databaseInitTexts.map String.toList).flatten).2 "messages".toList = none := by
    rw [exec_databaseInitTexts, if_neg hothers.1]
  rw [databaseInit, tgMessagesCreateTable_eq hmessages, tgDialogsCreateTable_eq]
  · by_cases hdialogs : name = "dialogs".toList
    · rw [hdialogs, Function.update_self, if_neg hothers.2.1, if_neg hothers.2.2, if_pos rfl]
    · rw [Function.update_of_ne hdialogs, if_neg hdialogs]
      by_cases hname : name = "messages".toList
      · rw [hname, Function.update_self, if_neg hothers.1, if_pos rfl]
      · rw [Function.update_of_ne hname, if_neg hname, exec_databaseInitTexts]
  · rw [Function.update_of_ne hothers.2.2, exec_databaseInitTexts, if_neg hothers.2.1]

end LibTg.Tg
