import LibTg.Data.Last
import LibTg.Tg.Database

/-!
# The stores of hashes (`tg/database.c`)

A writer adds the columns of its table in the text that writes the row. From the second write on that
statement fails, and the rest of the text is not run: the table of dialogs keeps the hash that was
written first. The table of messages never gets the account into its row, because the `UPDATE`
compares a literal with the peer. A reader that finds no row returns a variable that it has not set.
-/

namespace LibTg.Tg

open Sql

def dialogsHashSql (id : Int32) (hash : UInt64) : List Char :=
  sprintf ["ALTER TABLE 'dialogs_hash' ADD COLUMN 'hash' INT; ",
    "INSERT INTO 'dialogs_hash' ('id') ", "SELECT %d ",
    "WHERE NOT EXISTS (SELECT 1 FROM dialogs_hash WHERE id = %d); ",
    "UPDATE 'dialogs_hash' SET 'hash' = '%ld', id = %d; "]
    [.d id, .d id, .ld hash.toInt64, .d id]

/-- `dialogs_hash_to_database`, for the account `tg->id`. -/
def dialogsHashToDatabase (id : Int32) (hash : UInt64) (database : Database) : ℤ × Database :=
  tgSqlite3Exec database (dialogsHashSql id hash)

def messagesHashSql (id : Int32) (peerId hash : UInt64) : List Char :=
  sprintf ["ALTER TABLE 'messages_hash' ADD COLUMN 'hash' INT; ",
    "ALTER TABLE 'messages_hash' ADD COLUMN 'peer_id' INT; ",
    "INSERT INTO 'messages_hash' ('peer_id') ", "SELECT %ld ",
    "WHERE NOT EXISTS (SELECT 1 FROM messages_hash WHERE peer_id = %ld); ",
    "UPDATE 'messages_hash' SET 'hash' = %ld, id = %d ", "WHERE 'peer_id' = %ld;"]
    [.ld peerId.toInt64, .ld peerId.toInt64, .ld hash.toInt64, .d id, .ld peerId.toInt64]

/-- `messages_hash_to_database`, for the account `tg->id`. -/
def messagesHashToDatabase (id : Int32) (peerId hash : UInt64) (database : Database) :
    ℤ × Database :=
  tgSqlite3Exec database (messagesHashSql id peerId hash)

/-- What a reader leaves: the hash that it returns, if the variable has a value, and whether
`databasem` is locked. -/
structure HashRead where
  hash : Option UInt64
  locked : Bool
  deriving DecidableEq, Repr

/-- The variable that every row is assigned to. -/
def assignedHash (rows : List (List Value)) : Option UInt64 :=
  rows.foldl (fun _ row ↦ some (columnInt64 (row.headD .null)).toUInt64) none

/-- `dialogs_hash_from_database`. It unlocks a mutex that it does not lock. -/
def dialogsHashFromDatabase (id : Int32) (database : Database) (_locked : Bool) : HashRead :=
  let sql := sprintf ["SELECT hash FROM dialogs_hash WHERE id = %d;"] [.d id]
  ⟨assignedHash (tgSqlite3ForEach database sql), false⟩

def messagesHashFromDatabase (id : Int32) (peerId : UInt64) (database : Database) (locked : Bool) :
    HashRead :=
  let sql := sprintf ["SELECT hash FROM messages_hash WHERE id = %d ", "AND peer_id = %ld;"]
    [.d id, .ld peerId.toInt64]
  ⟨assignedHash (tgSqlite3ForEach database sql), locked⟩

/-! ## The promise -/

/-- A call of a writer, by any account. -/
inductive HashWrite
  | dialogs (id : Int32) (hash : UInt64)
  | messages (id : Int32) (peerId hash : UInt64)
  deriving DecidableEq, Repr

def HashWrite.apply (database : Database) : HashWrite → Database
  | .dialogs id hash => (dialogsHashToDatabase id hash database).2
  | .messages id peerId hash => (messagesHashToDatabase id peerId hash database).2

/-- The calls of any accounts, on a new database. -/
def runHashes (calls : List HashWrite) : Database :=
  calls.foldl HashWrite.apply (databaseInit Database.empty)

/-- The account and the hash that a call writes for the dialogs. -/
def HashWrite.dialogsHash : HashWrite → Option (Int32 × UInt64)
  | .dialogs id hash => some (id, hash)
  | .messages _ _ _ => none

def HashWrite.messagesPeer : HashWrite → Option UInt64
  | .dialogs _ _ => none
  | .messages _ peerId _ => some peerId

/-- The hash that a call writes for a peer of an account. -/
def HashWrite.messagesHash (id : Int32) (peerId : UInt64) : HashWrite → Option UInt64
  | .dialogs _ _ => none
  | .messages other otherPeer hash =>
    if other = id ∧ otherPeer = peerId then some hash else none

/-- The hash of the dialogs that an account has written last. -/
def lastDialogsHash (id : Int32) (calls : List HashWrite) : Option UInt64 :=
  lastSet (fun call ↦ (call.dialogsHash.filter (·.1 = id)).map Prod.snd) calls

/-- The hash that an account has written last for a peer. -/
def lastMessagesHash (id : Int32) (peerId : UInt64) (calls : List HashWrite) : Option UInt64 :=
  lastSet (HashWrite.messagesHash id peerId) calls

/-- The hash of the dialogs is the one the account has written last, or the fixed value for none,
and the mutex is left as it was. -/
def DialogsHashKept (noHash : UInt64) (calls : List HashWrite) (id : Int32) : Prop :=
  ∀ locked, dialogsHashFromDatabase id (runHashes calls) locked =
    ⟨some ((lastDialogsHash id calls).getD noHash), locked⟩

/-- The same of the hash of a peer. -/
def MessagesHashKept (noHash : UInt64) (calls : List HashWrite) (id : Int32) (peerId : UInt64) :
    Prop :=
  ∀ locked, messagesHashFromDatabase id peerId (runHashes calls) locked =
    ⟨some ((lastMessagesHash id peerId calls).getD noHash), locked⟩

/-- The last write of an account wins in both stores. -/
def LastWriteWins (calls : List HashWrite) : Prop :=
  ∃ noHash, (∀ id, DialogsHashKept noHash calls id) ∧
    ∀ id peerId, MessagesHashKept noHash calls id peerId

/-! ## Statements -/

/-- The column that both writers add. -/
def hashColumn : Column := ⟨"hash".toList, .integer, false⟩

/-- What the last statement of the dialogs' text assigns. -/
def dialogsHashSets (id : Int32) (hash : UInt64) : List (Name × Operand) :=
  [("hash".toList, .value (.text (printInt hash.toInt64.toInt))),
    ("id".toList, .value (.int id.toInt64))]

set_option maxRecDepth 4000 in
theorem statements_dialogsHashSql (id : Int32) (hash : UInt64) :
    statements (lex (dialogsHashSql id hash)) =
      [some (.addColumn "dialogs_hash".toList hashColumn),
        some (.insertAbsent "dialogs_hash".toList "id".toList (.value (.int id.toInt64))
          "dialogs_hash".toList [isAccount id]),
        some (.update "dialogs_hash".toList (dialogsHashSets id hash) [])] :=
  statements_sprintf [_, _, _, _, _] rfl (by simp) rfl

set_option maxRecDepth 4000 in
/-- The condition of the last statement has a text where the column was meant. -/
theorem statements_messagesHashSql (id : Int32) (peerId hash : UInt64) :
    statements (lex (messagesHashSql id peerId hash)) =
      [some (.addColumn "messages_hash".toList hashColumn),
        some (.addColumn "messages_hash".toList peerIdColumn),
        some (.insertAbsent "messages_hash".toList "peer_id".toList
          (.value (.int peerId.toInt64)) "messages_hash".toList [isPeer peerId]),
        some (.update "messages_hash".toList
          [("hash".toList, .value (.int hash.toInt64)), ("id".toList, .value (.int id.toInt64))]
          [⟨.value (.text "peer_id".toList), .value (.int peerId.toInt64)⟩])] :=
  statements_sprintf [_, _, _, _, _, _, _] rfl (by simp) rfl

/-! ## Tables -/

/-- The columns of the table of dialogs once it is written. -/
def dialogsHashColumns : List Column := [idColumn, hashColumn]

/-- The row of the first write. -/
def dialogsHashRow (first : Int32 × UInt64) : Row :=
  (Row.empty.assign [("id".toList, .int first.1.toInt64)]).assign
    [("hash".toList, .int first.2.toInt64), ("id".toList, .int first.1.toInt64)]

/-- The table of dialogs after its first write. -/
def dialogsHashTable : Option (Int32 × UInt64) → Table
  | none => ⟨[idColumn], []⟩
  | some first => ⟨dialogsHashColumns, [dialogsHashRow first]⟩

/-- The columns of the table of messages once it is written. -/
def messagesHashColumns : List Column := [idColumn, hashColumn, peerIdColumn]

/-- The table of messages after a first write for a peer. -/
def messagesHashTable : Option UInt64 → Table
  | none => ⟨[idColumn], []⟩
  | some peerId =>
    ⟨messagesHashColumns, [Row.empty.assign [("peer_id".toList, .int peerId.toInt64)]]⟩

/-- The first write of a table: its columns are added, a row is made and perhaps filled. -/
theorem executeAll_firstWrite {database : Database} {name : Name} {added columns : List Column}
    (hdatabase : database name = some ⟨[idColumn], []⟩) (hcolumns : [idColumn] ++ added = columns)
    (hnodup : (columns.map (·.name)).Nodup) (hplain : ∀ column ∈ columns, column.unique = false)
    {column : Column} {number : Int64} (hcolumn : findColumn columns column.name = some column)
    (hinteger : column.affinity = .integer) {absent condition : List Comparison}
    (habsent : resolves columns absent) {sets : List (Name × Operand)}
    (hresolves : (sets.all fun set ↦ (findColumn columns set.1).isSome &&
      set.2.resolves columns) ∧ resolves columns condition) {row : Row}
    (hrow : (if meets columns .null condition (Row.empty.assign [(column.name, .int number)]) then
        (Row.empty.assign [(column.name, .int number)]).assign
          (assignments columns .null sets (Row.empty.assign [(column.name, .int number)]))
      else Row.empty.assign [(column.name, .int number)]) = row) :
    executeAll database (added.map (fun column ↦ some (.addColumn name column)) ++
        [some (.insertAbsent name column.name (.value (.int number)) name absent),
          some (.update name sets condition)]) =
      (true, Function.update database name (some ⟨columns, [row]⟩)) := by
  have hunique (rows : List Row) : Table.Unique ⟨columns, rows⟩ := unique_of_forall hplain rows
  have hstored : stored columns column.name (.int number) = .int number := by
    rw [stored, hcolumn, Option.map_some, Option.getD_some, hinteger]
    rfl
  have hready : (findColumn columns column.name).isSome ∧
      (Operand.value (.int number)).resolves [] ∧ resolves columns absent := by
    rw [hcolumn]
    exact ⟨rfl, rfl, habsent⟩
  have hinserted : execute .null (Function.update database name (some ⟨columns, []⟩))
      (.insertAbsent name column.name (.value (.int number)) name absent) =
        some (Function.update database name
          (some ⟨columns, [Row.empty.assign [(column.name, .int number)]]⟩)) := by
    simp only [execute, Function.update_self, Option.bind_eq_bind, Option.bind_some,
      if_pos hready, List.any_nil, Bool.false_eq_true, if_false, Operand.eval, hstored,
      List.nil_append]
    rw [store_of_unique (hunique _), Function.update_idem]
  have hupdated : execute .null (Function.update database name
      (some ⟨columns, [Row.empty.assign [(column.name, .int number)]]⟩))
      (.update name sets condition) =
        some (Function.update database name (some ⟨columns, [row]⟩)) := by
    simp only [execute, Function.update_self, Option.bind_eq_bind, Option.bind_some,
      if_pos hresolves, List.map_cons, List.map_nil, hrow]
    rw [store_of_unique (hunique _), Function.update_idem]
  rw [executeAll_addColumns hdatabase (hcolumns ▸ hnodup), hcolumns]
  simp only [executeAll, hinserted, hupdated]

/-- A printed hash is stored as the number that it spells. -/
theorem assignments_dialogsHash (id : Int32) (hash : UInt64) (row : Row) :
    assignments dialogsHashColumns .null (dialogsHashSets id hash) row =
      [("hash".toList, .int hash.toInt64), ("id".toList, .int id.toInt64)] := by
  have hhash : findColumn dialogsHashColumns "hash".toList = some hashColumn := by decide +kernel
  have hid : findColumn dialogsHashColumns "id".toList = some idColumn := by decide +kernel
  simp only [assignments, dialogsHashSets, List.map_cons, List.map_nil, stored, hhash, hid, Option.map_some,
    Option.getD_some, Operand.eval, hashColumn, idColumn, Affinity.store, textInt_printInt,
    Option.elim_some]

/-- The first write of the table of dialogs counts, and no other one. -/
theorem dialogsHashToDatabase_spec {database : Database} {first : Option (Int32 × UInt64)}
    (hdatabase : database "dialogs_hash".toList = some (dialogsHashTable first)) (id : Int32)
    (hash : UInt64) : (dialogsHashToDatabase id hash database).2 =
      Function.update database "dialogs_hash".toList
        (some (dialogsHashTable (first.or (some (id, hash))))) := by
  have hexec : (dialogsHashToDatabase id hash database).2 =
      (executeAll database (statements (lex (dialogsHashSql id hash)))).2 := rfl
  rw [hexec, statements_dialogsHashSql]
  cases first with
  | some first =>
    have hcolumn : (findColumn dialogsHashColumns hashColumn.name).isSome := by decide +kernel
    rw [executeAll_addColumn_present hdatabase hcolumn, Option.some_or, ← hdatabase,
      Function.update_eq_self]
  | none =>
    have hid : findColumn dialogsHashColumns idColumn.name = some idColumn := by decide +kernel
    have habsent : resolves dialogsHashColumns [isAccount id] := rfl
    have hrow : (if meets dialogsHashColumns .null []
          (Row.empty.assign [(idColumn.name, .int id.toInt64)]) then
        (Row.empty.assign [(idColumn.name, .int id.toInt64)]).assign
          (assignments dialogsHashColumns .null (dialogsHashSets id hash)
            (Row.empty.assign [(idColumn.name, .int id.toInt64)]))
      else Row.empty.assign [(idColumn.name, .int id.toInt64)]) = dialogsHashRow (id, hash) := by
      rw [meets_nil, if_pos rfl, assignments_dialogsHash]
      rfl
    have hwrite : executeAll database ([hashColumn].map (fun column ↦
        some (.addColumn "dialogs_hash".toList column)) ++
        [some (.insertAbsent "dialogs_hash".toList idColumn.name (.value (.int id.toInt64))
            "dialogs_hash".toList [isAccount id]),
          some (.update "dialogs_hash".toList (dialogsHashSets id hash) [])]) = _ :=
      executeAll_firstWrite hdatabase rfl (by decide +kernel) (by decide +kernel) hid rfl habsent
        ⟨rfl, rfl⟩ hrow
    exact congrArg Prod.snd hwrite

/-- The literal of the last statement is not the peer. -/
theorem meets_literal (peerId : UInt64) (row : Row) :
    meets messagesHashColumns .null
      [⟨.value (.text "peer_id".toList), .value (.int peerId.toInt64)⟩] row = false := by
  rw [meets_cons]
  rfl

/-- The first write makes a row with a peer and nothing else; it stays the only one. -/
theorem messagesHashToDatabase_spec {database : Database} {first : Option UInt64}
    (hdatabase : database "messages_hash".toList = some (messagesHashTable first)) (id : Int32)
    (peerId hash : UInt64) : (messagesHashToDatabase id peerId hash database).2 =
      Function.update database "messages_hash".toList
        (some (messagesHashTable (first.or (some peerId)))) := by
  have hexec : (messagesHashToDatabase id peerId hash database).2 =
      (executeAll database (statements (lex (messagesHashSql id peerId hash)))).2 := rfl
  rw [hexec, statements_messagesHashSql]
  cases first with
  | some first =>
    have hcolumn : (findColumn messagesHashColumns hashColumn.name).isSome := by decide +kernel
    rw [executeAll_addColumn_present hdatabase hcolumn, Option.some_or, ← hdatabase,
      Function.update_eq_self]
  | none =>
    have hpeer : findColumn messagesHashColumns peerIdColumn.name = some peerIdColumn := by
      decide +kernel
    have habsent : resolves messagesHashColumns [isPeer peerId] := rfl
    have hwrite : executeAll database ([hashColumn, peerIdColumn].map (fun column ↦
        some (.addColumn "messages_hash".toList column)) ++
        [some (.insertAbsent "messages_hash".toList peerIdColumn.name
            (.value (.int peerId.toInt64)) "messages_hash".toList [isPeer peerId]),
          some (.update "messages_hash".toList
            [("hash".toList, .value (.int hash.toInt64)), ("id".toList, .value (.int id.toInt64))]
            [⟨.value (.text "peer_id".toList), .value (.int peerId.toInt64)⟩])]) = _ :=
      executeAll_firstWrite hdatabase rfl (by decide +kernel) (by decide +kernel) hpeer rfl habsent
        ⟨rfl, rfl⟩ (if_neg (ne_true_of_eq_false (meets_literal peerId _)))
    exact congrArg Prod.snd hwrite

/-! ## Readers -/

set_option maxRecDepth 4000 in
theorem query_dialogsHash (database : Database) (id : Int32) :
    query database (sprintf ["SELECT hash FROM dialogs_hash WHERE id = %d;"] [.d id]) =
      selectRows database ⟨["hash".toList], "dialogs_hash".toList, [isAccount id]⟩ := by
  have hquery : query database
      (sprintf ["SELECT hash FROM dialogs_hash WHERE id = %d;"] [.d id]) =
      (some (⟨["hash".toList], "dialogs_hash".toList, [isAccount id]⟩ : Select)).bind
        (selectRows database) :=
    query_sprintf [_] rfl database (by simp) rfl
  exact hquery

set_option maxRecDepth 4000 in
theorem query_messagesHash (database : Database) (id : Int32) (peerId : UInt64) :
    query database (sprintf ["SELECT hash FROM messages_hash WHERE id = %d ",
      "AND peer_id = %ld;"] [.d id, .ld peerId.toInt64]) =
      selectRows database
        ⟨["hash".toList], "messages_hash".toList, [isAccount id, isPeer peerId]⟩ := by
  have hquery : query database (sprintf ["SELECT hash FROM messages_hash WHERE id = %d ",
      "AND peer_id = %ld;"] [.d id, .ld peerId.toInt64]) =
      (some (⟨["hash".toList], "messages_hash".toList, [isAccount id, isPeer peerId]⟩ :
        Select)).bind (selectRows database) :=
    query_sprintf [_, _] rfl database (by simp) rfl
  exact hquery

/-- The reader of the dialogs finds the first write, if it was the account's. -/
theorem dialogsHashFromDatabase_spec {database : Database} {first : Option (Int32 × UInt64)}
    (hdatabase : database "dialogs_hash".toList = some (dialogsHashTable first)) (id : Int32)
    (locked : Bool) : dialogsHashFromDatabase id database locked =
      ⟨(first.filter (·.1 = id)).map Prod.snd, false⟩ := by
  rw [dialogsHashFromDatabase, tgSqlite3ForEach, query_dialogsHash]
  cases first with
  | none => rw [selectRows_of_nil hdatabase]; rfl
  | some first =>
    have hready : (["hash".toList].all fun name ↦ (findColumn dialogsHashColumns name).isSome) ∧
        resolves dialogsHashColumns [isAccount id] := ⟨by decide +kernel, rfl⟩
    have hid : dialogsHashRow first "id".toList = .int first.1.toInt64 := by rfl
    have hhash : dialogsHashRow first "hash".toList = .int first.2.toInt64 := by rfl
    have hmeets : meets dialogsHashColumns .null [isAccount id] (dialogsHashRow first) =
        decide (first.1 = id) := by
      rw [isAccount, meets_column idColumn (by decide +kernel) rfl Value.noConfusion, hid]
      apply decide_eq_decide.mpr
      rw [Value.int.injEq, int32_toInt64_injective.eq_iff]
    simp only [selectRows, hdatabase, dialogsHashTable, Option.bind_eq_bind, Option.bind_some,
      if_pos hready, List.filter_singleton, hmeets, Option.filter_some]
    by_cases haccount : first.1 = id
    · rw [decide_eq_true haccount, cond_true, List.map_singleton, List.map_singleton, hhash]
      simp [assignedHash, columnInt64]
    · simp [haccount, assignedHash]

/-- The reader of a peer never finds a row. -/
theorem messagesHashFromDatabase_spec {database : Database} {first : Option UInt64}
    (hdatabase : database "messages_hash".toList = some (messagesHashTable first)) (id : Int32)
    (peerId : UInt64) (locked : Bool) :
    messagesHashFromDatabase id peerId database locked = ⟨none, locked⟩ := by
  rw [messagesHashFromDatabase, tgSqlite3ForEach, query_messagesHash]
  cases first with
  | none => rw [selectRows_of_nil hdatabase]; rfl
  | some first =>
    have hready : (["hash".toList].all fun name ↦ (findColumn messagesHashColumns name).isSome) ∧
        resolves messagesHashColumns [isAccount id, isPeer peerId] := ⟨by decide +kernel, rfl⟩
    have hid (row : Row) (hrow : row "id".toList = .null) :
        meets messagesHashColumns .null [isAccount id, isPeer peerId] row = false := by
      rw [meets_cons, isAccount, holds_column idColumn (by decide +kernel) rfl Value.noConfusion,
        hrow]
      rfl
    simp only [selectRows, hdatabase, messagesHashTable, Option.bind_eq_bind, Option.bind_some,
      if_pos hready, List.filter_singleton,
      hid (Row.empty.assign [("peer_id".toList, .int first.toInt64)]) rfl]
    rfl

/-! ## Sequences of calls -/

/-- The tables hold what the first call for each of them has written. -/
structure HoldsHashes (calls : List HashWrite) (database : Database) : Prop where
  dialogs : database "dialogs_hash".toList =
    some (dialogsHashTable (calls.filterMap HashWrite.dialogsHash).head?)
  messages : database "messages_hash".toList =
    some (messagesHashTable (calls.filterMap HashWrite.messagesPeer).head?)

theorem holdsHashes_runHashes (calls : List HashWrite) : HoldsHashes calls (runHashes calls) := by
  have hnames : "dialogs_hash".toList ∈ accountTables ∧ "messages_hash".toList ∈ accountTables ∧
      "dialogs_hash".toList ≠ "messages_hash".toList := by
    decide +kernel
  induction calls using List.reverseRecOn with
  | nil =>
    constructor
    · rw [runHashes, List.foldl_nil, databaseInit_apply, if_pos hnames.1]
      rfl
    · rw [runHashes, List.foldl_nil, databaseInit_apply, if_pos hnames.2.1]
      rfl
  | append_singleton calls call ih =>
    have hrun : runHashes (calls ++ [call]) = call.apply (runHashes calls) := by
      rw [runHashes, List.foldl_append]
      rfl
    rw [hrun]
    cases call with
    | dialogs id hash =>
      rw [HashWrite.apply, dialogsHashToDatabase_spec ih.dialogs]
      constructor
      · rw [Function.update_self, List.filterMap_append, List.head?_append]
        rfl
      · rw [Function.update_of_ne hnames.2.2.symm, ih.messages, List.filterMap_append]
        simp [HashWrite.messagesPeer]
    | messages id peerId hash =>
      rw [HashWrite.apply, messagesHashToDatabase_spec ih.messages]
      constructor
      · rw [Function.update_of_ne hnames.2.2, ih.dialogs, List.filterMap_append]
        simp [HashWrite.dialogsHash]
      · rw [Function.update_self, List.filterMap_append, List.head?_append]
        rfl

/-- An account reads the hash of the dialogs that was written first, if it has written that. -/
theorem dialogsHashFromDatabase_runHashes (calls : List HashWrite) (id : Int32) (locked : Bool) :
    dialogsHashFromDatabase id (runHashes calls) locked =
      ⟨((calls.filterMap HashWrite.dialogsHash).head?.filter (·.1 = id)).map Prod.snd, false⟩ :=
  dialogsHashFromDatabase_spec (holdsHashes_runHashes calls).dialogs id locked

/-- No account reads a hash of a peer. -/
theorem messagesHashFromDatabase_runHashes (calls : List HashWrite) (id : Int32) (peerId : UInt64)
    (locked : Bool) : messagesHashFromDatabase id peerId (runHashes calls) locked =
      ⟨none, locked⟩ :=
  messagesHashFromDatabase_spec (holdsHashes_runHashes calls).messages id peerId locked

/-- The reader of the dialogs unlocks the mutex. -/
theorem not_dialogsHashKept (noHash : UInt64) (calls : List HashWrite) (id : Int32) :
    ¬ DialogsHashKept noHash calls id := by
  intro hkept
  have hlocked := congrArg HashRead.locked (hkept true)
  rw [dialogsHashFromDatabase_runHashes] at hlocked
  cases hlocked

/-- The reader of a peer returns a variable without a value. -/
theorem not_messagesHashKept (noHash : UInt64) (calls : List HashWrite) (id : Int32)
    (peerId : UInt64) : ¬ MessagesHashKept noHash calls id peerId := by
  intro hkept
  have hhash := congrArg HashRead.hash (hkept false)
  rw [messagesHashFromDatabase_runHashes] at hhash
  cases hhash

/-- In no run does the last write win. -/
theorem not_lastWriteWins (calls : List HashWrite) : ¬ LastWriteWins calls := by
  rintro ⟨noHash, -, hmessages⟩
  exact not_messagesHashKept noHash calls 0 0 (hmessages 0 0)

/-- An account that writes a second hash goes on reading the first. -/
theorem not_lastWriteWins_second : ¬ LastWriteWins [.dialogs 1 5, .dialogs 1 6] := by
  rintro ⟨noHash, hdialogs, -⟩
  have hhash := congrArg HashRead.hash (hdialogs 1 false)
  have hlast : lastDialogsHash 1 [.dialogs 1 5, .dialogs 1 6] = some 6 := by decide +kernel
  have hfirst : ([HashWrite.dialogs 1 5, .dialogs 1 6].filterMap
      HashWrite.dialogsHash).head? = some (1, 5) := by
    decide +kernel
  rw [dialogsHashFromDatabase_runHashes, hlast, Option.getD_some, hfirst] at hhash
  exact absurd hhash (by decide +kernel)

end LibTg.Tg
